import Raceway.TrackError
/-!
# Actions

An action works on a state and can be refused. What it has written before it is refused stays
written, so an action that is to leave no trace of a refusal has to make its checks first.
-/

namespace Raceway

/-- An operation on a state that returns a value or is refused. -/
abbrev Action (σ β : Type) : Type := EStateM (TrackError Float) σ β

namespace Action

variable {σ τ β : Type}

/-- Goes on with the value of a check, or is refused with its error. -/
def check (x : Except (TrackError Float) β) : Action σ β := fun s =>
  match x with
  | .ok b => .ok b s
  | .error error => .error error s

/-- An action on a part of the state, which is put back in either case. -/
def focus (get : σ → τ) (put : σ → τ → σ) (action : Action τ β) : Action σ β := fun s =>
  match action (get s) with
  | .ok b t => .ok b (put s t)
  | .error error t => .error error (put s t)

end Action

end Raceway
