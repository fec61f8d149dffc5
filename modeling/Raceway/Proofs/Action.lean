import Raceway.Action
/-!
# Refused actions

An action that makes its checks before it writes leaves no trace of a refusal.  It is put together
from actions that only look at the state, which may be refused, and from actions that write and
are never refused.
-/

namespace Raceway.Action

variable {σ τ β γ : Type}

/-- Whether a refusal leaves the state as it was. -/
def Safe (action : Action σ β) : Prop :=
  ∀ s error t, action s = .error error t → t = s

/-- Whether an action is never refused. -/
def Total (action : Action σ β) : Prop :=
  ∀ s error t, action s ≠ .error error t

/-- Whether an action only looks at the state when it is not refused. -/
def Reads (action : Action σ β) : Prop :=
  ∀ s b t, action s = .ok b t → t = s

/-- Whether the values of an action have a property. -/
def Returns (action : Action σ β) (P : β → Prop) : Prop :=
  ∀ s b t, action s = .ok b t → P b

/-! ## One action after another -/

section

variable {action : Action σ β} {next : β → Action σ γ} {s t : σ} {b : β}

theorem bind_of_ok (h : action s = .ok b t) : (action >>= next) s = next b t := by
  simp only [bind, EStateM.bind, h]

theorem bind_of_error {error : TrackError Float} (h : action s = .error error t) :
    (action >>= next) s = .error error t := by
  simp only [bind, EStateM.bind, h]

/-- Looking at the state comes first: what follows is safe from there. -/
theorem Safe.bind (hsafe : Safe action) (hreads : Reads action) (hnext : ∀ b, Safe (next b)) :
    Safe (action >>= next) := by
  intro s error u h
  cases haction : action s with
  | ok b t =>
      rw [bind_of_ok haction] at h
      rw [hnext b t error u h, hreads s b t haction]
  | error e t =>
      rw [bind_of_error haction] at h
      cases h
      exact hsafe s _ _ haction

/-- Writing comes last, when nothing can be refused any more. -/
theorem Safe.bind_total (hsafe : Safe action) (hnext : ∀ b, Total (next b)) :
    Safe (action >>= next) := by
  intro s error u h
  cases haction : action s with
  | ok b t =>
      rw [bind_of_ok haction] at h
      exact absurd h (hnext b t error u)
  | error e t =>
      rw [bind_of_error haction] at h
      cases h
      exact hsafe s _ _ haction

theorem Total.bind (haction : Total action) (hnext : ∀ b, Total (next b)) :
    Total (action >>= next) := by
  intro s error u h
  cases hs : action s with
  | ok b t =>
      rw [bind_of_ok hs] at h
      exact hnext b t error u h
  | error e t => exact haction s e t hs

theorem Returns.bind {P : γ → Prop} (hnext : ∀ b, Returns (next b) P) :
    Returns (action >>= next) P := by
  intro s c u h
  cases haction : action s with
  | ok b t =>
      rw [bind_of_ok haction] at h
      exact hnext b t c u h
  | error e t =>
      rw [bind_of_error haction] at h
      cases h

end

theorem Total.safe {action : Action σ β} (h : Total action) : Safe action :=
  fun s error t hs => absurd hs (h s error t)

/-! ## Single actions -/

theorem safe_check (x : Except (TrackError Float) β) : Safe (check x : Action σ β) := by
  intro s error t h
  cases x with
  | ok b => cases h
  | error e => cases h; rfl

theorem reads_check (x : Except (TrackError Float) β) : Reads (check x : Action σ β) := by
  intro s b t h
  cases x with
  | ok b => cases h; rfl
  | error e => cases h

theorem total_pure (b : β) : Total (pure b : Action σ β) :=
  fun _ _ _ h => nomatch h

theorem total_get : Total (get : Action σ σ) :=
  fun _ _ _ h => nomatch h

theorem reads_get : Reads (get : Action σ σ) := by
  intro s b t h
  cases h
  rfl

theorem total_set (s : σ) : Total (set s : Action σ PUnit) :=
  fun _ _ _ h => nomatch h

theorem total_modify (f : σ → σ) : Total (modify f : Action σ PUnit) :=
  fun _ _ _ h => nomatch h

theorem returns_pure {P : β → Prop} {b : β} (hb : P b) : Returns (pure b : Action σ β) P := by
  intro s c t h
  cases h
  exact hb

/-! ## Parts of a state -/

variable {get : σ → τ} {put : σ → τ → σ} {action : Action τ β}

theorem Safe.focus (h : Safe action) (hput : ∀ s, put s (get s) = s) :
    Safe (Action.focus get put action) := by
  intro s error u hs
  unfold Action.focus at hs
  split at hs
  · cases hs
  · rename_i e t hpart
    cases hs
    rw [h _ _ _ hpart, hput]

theorem Total.focus (h : Total action) : Total (Action.focus get put action) := by
  intro s error u hs
  unfold Action.focus at hs
  split at hs
  · cases hs
  · rename_i e t hpart
    exact h _ _ _ hpart

end Raceway.Action
