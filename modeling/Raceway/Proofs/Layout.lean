import Raceway.Layout
/-!
# Layouts as flat lists

Points are handed over as the list of their coordinates, one point after another.  The points, and
so a whole layout, are got back from such lists, and the lists from what has been made of them.
-/

namespace Raceway

variable {α : Type}

/-- What is made of the items of a list two by two can be split up into the list again, unless an
item was left over. -/
theorem flatMap_pairUp {β γ : Type} (pairUp : List β → List γ) (join : β → β → γ)
    (split : γ → List β) (hnil : pairUp [] = [])
    (hcons : ∀ x y rest, pairUp (x :: y :: rest) = join x y :: pairUp rest)
    (hsplit : ∀ x y, split (join x y) = [x, y]) :
    ∀ {items : List β}, items.length % 2 = 0 → (pairUp items).flatMap split = items
  | [], _ => by rw [hnil, List.flatMap_nil]
  | [_], heven => by cases heven
  | x :: y :: rest, heven => by
      have hrest : rest.length % 2 = 0 := by
        simp only [List.length_cons] at heven
        omega
      rw [hcons, List.flatMap_cons, hsplit,
        flatMap_pairUp pairUp join split hnil hcons hsplit hrest]
      rfl

namespace Point

/-- The coordinates of points, one point after another. -/
def flat (points : List (Point α)) : List α :=
  points.flatMap fun p => [p.x, p.y]

@[simp] theorem flat_cons (p : Point α) (points : List (Point α)) :
    flat (p :: points) = p.x :: p.y :: flat points := rfl

@[simp] theorem flat_append (points more : List (Point α)) :
    flat (points ++ more) = flat points ++ flat more :=
  List.flatMap_append

@[simp]
theorem length_flat (points : List (Point α)) : (flat points).length = 2 * points.length := by
  induction points with
  | nil => rfl
  | cons p points ih =>
      simp [ih, Nat.mul_add]

@[simp] theorem pairUp_flat (points : List (Point α)) : pairUp (flat points) = points := by
  induction points with
  | nil => rfl
  | cons p points ih => simp [pairUp, ih]

@[simp] theorem length_pairUp (coords : List α) : (pairUp coords).length = coords.length / 2 := by
  induction coords using pairUp.induct with
  | case1 x y rest ih =>
      simp only [pairUp, List.length_cons, ih]
      omega
  | case2 coords hshort =>
      match coords with
      | [] => simp [pairUp]
      | [_] => simp [pairUp]
      | x :: y :: rest => exact absurd rfl (hshort x y rest)

theorem flat_pairUp {coords : List α} (heven : coords.length % 2 = 0) :
    flat (pairUp coords) = coords :=
  flatMap_pairUp pairUp Point.mk (fun p => [p.x, p.y]) rfl (fun _ _ _ => rfl) (fun _ _ => rfl)
    heven

theorem of_ofFlat {buffer : Buffer} {coords : List α} {points : List (Point α)}
    (h : ofFlat buffer coords = .ok points) :
    coords.length % 2 = 0 ∧ points = pairUp coords := by
  by_cases heven : coords.length % 2 = 0
  · rw [ofFlat, if_pos (beq_iff_eq.mpr heven)] at h
    exact ⟨heven, (Except.ok.inj h).symm⟩
  · rw [ofFlat, if_neg (mt beq_iff_eq.mp heven)] at h
    cases h

@[simp] theorem ofFlat_flat (buffer : Buffer) (points : List (Point α)) :
    ofFlat buffer (flat points) = .ok points := by
  simp [ofFlat]

end Point

/-- Flat lists keep the layout, gates without a second end included. -/
theorem Layout.ofFlat_flat (layout : Layout α) :
    Layout.ofFlat (Point.flat layout.inner) (Point.flat layout.outer)
      (Point.flat layout.checkpoints) = .ok layout := by
  simp only [Layout.ofFlat, Point.ofFlat_flat]
  rfl

end Raceway
