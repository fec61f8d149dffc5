import Raceway.Course
/-!
# What a course is laid from

A layout that has been laid went through every check: its playfield is valid, both of its rings
are closed, and all of their segments are walls of the grid.
-/

namespace Raceway

theorem exists_of_bind_eq_ok {ε β γ : Type} {x : Except ε β} {next : β → Except ε γ} {c : γ}
    (h : x >>= next = .ok c) : ∃ b, x = .ok b ∧ next b = .ok c := by
  cases x with
  | error error => cases h
  | ok b => exact ⟨b, rfl, h⟩

variable {α : Type}

theorem Ring.of_close {ring : Ring} {points : List (Point α)} {segments : List (Segment α)}
    (h : ring.close points = .ok segments) :
    ∃ a b rest, points = a :: b :: rest ∧ segments = Segment.closing a a (b :: rest) := by
  unfold Ring.close at h
  split at h
  · exact ⟨_, _, _, rfl, (Except.ok.inj h).symm⟩
  · cases h

theorem Segment.ends_of_mem_closing {start a : Point α} {rest : List (Point α)} {s : Segment α}
    (h : s ∈ closing start a rest) : s.a ∈ a :: rest ∧ s.b ∈ start :: rest := by
  induction rest generalizing a with
  | nil =>
      obtain rfl := List.mem_singleton.mp h
      exact ⟨List.mem_cons_self, List.mem_cons_self⟩
  | cons b rest ih =>
      rcases List.mem_cons.mp h with rfl | h
      · exact ⟨List.mem_cons_self, List.mem_cons_of_mem start List.mem_cons_self⟩
      · obtain ⟨ha, hb⟩ := ih h
        refine ⟨List.mem_cons_of_mem a ha, ?_⟩
        rcases List.mem_cons.mp hb with hb | hb
        · exact List.mem_cons.mpr (Or.inl hb)
        · exact List.mem_cons_of_mem start (List.mem_cons_of_mem b hb)

namespace Layout

/-- The points that a ring of a layout is drawn with. -/
def points (layout : Layout α) : Ring → List (Point α)
  | .inner => layout.inner
  | .outer => layout.outer

theorem of_walls {layout : Layout α} {walls : List (Segment α)} (h : layout.walls = .ok walls) :
    ∃ inner outer, Ring.inner.close layout.inner = .ok inner ∧
      Ring.outer.close layout.outer = .ok outer ∧ walls = inner ++ outer := by
  unfold Layout.walls at h
  obtain ⟨inner, hinner, h⟩ := exists_of_bind_eq_ok h
  obtain ⟨outer, houter, h⟩ := exists_of_bind_eq_ok h
  exact ⟨inner, outer, hinner, houter, (Except.ok.inj h).symm⟩

theorem ring_subset_walls {layout : Layout α} {walls : List (Segment α)}
    (h : layout.walls = .ok walls) (ring : Ring) :
    ∃ segments, ring.close (layout.points ring) = .ok segments ∧ segments ⊆ walls ∧
      ∀ s ∈ segments, s.a ∈ layout.points ring ∧ s.b ∈ layout.points ring := by
  have hends {points : List (Point α)} {segments : List (Segment α)} {ring : Ring}
      (h : ring.close points = .ok segments) : ∀ s ∈ segments, s.a ∈ points ∧ s.b ∈ points := by
    obtain ⟨a, b, rest, rfl, rfl⟩ := Ring.of_close h
    exact fun s hs => Segment.ends_of_mem_closing hs
  obtain ⟨inner, outer, hinner, houter, rfl⟩ := of_walls h
  cases ring with
  | inner => exact ⟨inner, hinner, List.subset_append_left inner outer, hends hinner⟩
  | outer => exact ⟨outer, houter, List.subset_append_right inner outer, hends houter⟩

end Layout

theorem Course.of_lay [Coord α] {layout : Layout α} {field : Playfield α} {course : Course α}
    (h : Course.lay layout field = .ok course) :
    field.validate = .ok () ∧ ∃ walls, layout.walls = .ok walls ∧
      layout.gates = .ok course.gates ∧ Grid.build field walls = .ok course.grid := by
  unfold Course.lay at h
  obtain ⟨_, hvalid, h⟩ := exists_of_bind_eq_ok h
  obtain ⟨walls, hwalls, h⟩ := exists_of_bind_eq_ok h
  obtain ⟨gates, hgates, h⟩ := exists_of_bind_eq_ok h
  obtain ⟨grid, hgrid, h⟩ := exists_of_bind_eq_ok h
  obtain rfl := Except.ok.inj h
  exact ⟨hvalid, walls, hwalls, hgates, hgrid⟩

theorem Course.lay_eq_ok [Coord α] {layout : Layout α} {field : Playfield α}
    {walls gates : List (Segment α)} {grid : Grid α} (hvalid : field.validate = .ok ())
    (hwalls : layout.walls = .ok walls) (hgates : layout.gates = .ok gates)
    (hgrid : Grid.build field walls = .ok grid) :
    Course.lay layout field = .ok ⟨grid, gates⟩ := by
  rw [Course.lay, hvalid, hwalls, hgates]
  simp only [bind, Except.bind, hgrid]
  rfl

end Raceway
