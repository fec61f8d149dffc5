import Raceway.Layout
/-!
# Hitboxes

The quadrilateral around a racer.
-/

namespace Raceway

/-- A quadrilateral by its corners in order. -/
structure Hitbox (α : Type) where
  a : Point α
  b : Point α
  c : Point α
  d : Point α

namespace Hitbox

section

variable {α : Type}

def corners (box : Hitbox α) : List (Point α) :=
  [box.a, box.b, box.c, box.d]

/-- The four sides; the last one leads back to the first corner. -/
def edges (box : Hitbox α) : List (Segment α) :=
  [⟨box.a, box.b⟩, ⟨box.b, box.c⟩, ⟨box.c, box.d⟩, ⟨box.d, box.a⟩]

/-- The hitbox of a flat list of eight coordinates. -/
def ofFlat (coords : List α) : Except (TrackError α) (Hitbox α) := do
  match ← Point.ofFlat .hitbox coords with
  | [a, b, c, d] => return ⟨a, b, c, d⟩
  | points => .error (.malformedHitbox points.length)

end

variable {α : Type} [Coord α]

/-- The box with sides along the axes around a centre. -/
def around (centre : Point α) (halfWidth halfHeight : α) : Hitbox α :=
  ⟨⟨centre.x - halfWidth, centre.y - halfHeight⟩, ⟨centre.x + halfWidth, centre.y - halfHeight⟩,
    ⟨centre.x + halfWidth, centre.y + halfHeight⟩, ⟨centre.x - halfWidth, centre.y + halfHeight⟩⟩

/-- Whether a side of the hitbox meets a segment. -/
@[specialize] def crosses (box : Hitbox α) (s : Segment α) : Bool :=
  box.edges.any fun edge => edge.intersects s

end Hitbox

end Raceway
