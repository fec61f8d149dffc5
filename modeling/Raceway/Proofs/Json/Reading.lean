import Raceway.Json.Reader
/-!
# What comes of a reading

A text that has been written is read where it stands, in front of whatever may follow a value.
Either all of it is taken and the value is the one that was written, or there is a fault.
-/

namespace Raceway.Json

variable {α β : Type} {s t : List Char}

/-- A value and what is left if all is well, and a fault otherwise. -/
def Yields (good : Bool) (a : α) (rest : List Char) : Except Fault (Taken s α) → Prop
  | .ok x => good = true ∧ x.value = a ∧ x.rest = rest
  | .error _ => good = false

section

variable {good good' : Bool} {a : α} {b : β} {rest rest' : List Char}
  {x : Except Fault (Taken s α)}

theorem yields_ok {h : rest.length < s.length} : Yields true a rest (.ok ⟨a, rest, h⟩) :=
  ⟨rfl, rfl, rfl⟩

theorem yields_true_iff : Yields true a rest x ↔ ∃ h, x = .ok ⟨a, rest, h⟩ := by
  constructor
  · intro h
    match x, h with
    | .ok ⟨_, _, hshorter⟩, ⟨_, rfl, rfl⟩ => exact ⟨hshorter, rfl⟩
  · rintro ⟨h, rfl⟩
    exact yields_ok

theorem Yields.bind {next : Taken s α → Except Fault (Taken t β)} (h : Yields good a rest x)
    (hnext : ∀ h, Yields good' b rest' (next ⟨a, rest, h⟩)) :
    Yields (good && good') b rest' (x >>= next) := by
  match x, h with
  | .ok ⟨_, _, hshorter⟩, ⟨hgood, rfl, rfl⟩ =>
      rw [hgood, Bool.true_and]
      exact hnext hshorter
  | .error _, hgood =>
      rw [hgood, Bool.false_and]
      rfl

/-- What follows a reading may be sure to go well. -/
theorem Yields.bind_true {next : Taken s α → Except Fault (Taken t β)} (h : Yields good a rest x)
    (hnext : ∀ h, Yields true b rest' (next ⟨a, rest, h⟩)) :
    Yields good b rest' (x >>= next) := by
  rw [← Bool.and_true good]
  exact h.bind hnext

theorem exists_of_yields_bind {γ : Type} {x : Except Fault γ}
    {next : γ → Except Fault (Taken t β)} (h : Yields true b rest (x >>= next)) :
    ∃ c, x = .ok c ∧ Yields true b rest (next c) := by
  match x, h with
  | .ok c, h => exact ⟨c, rfl, h⟩

theorem Yields.map {f : Taken s α → Taken t β} (h : Yields good a rest x)
    (hf : ∀ h, (f ⟨a, rest, h⟩).value = b ∧ (f ⟨a, rest, h⟩).rest = rest') :
    Yields good b rest' (x >>= fun y => pure (f y)) :=
  h.bind_true fun hshorter => ⟨rfl, hf hshorter⟩

end

/-! ## Values in a text -/

/-- Whether a text ends here or goes on with a comma or a closing bracket. -/
def Delimited (rest : List Char) : Prop :=
  ∀ c ∈ rest.head?, c = ',' ∨ c = ']' ∨ c = '\x7d'

theorem delimited_nil : Delimited [] := by
  simp [Delimited]

theorem delimited_comma (rest : List Char) : Delimited (',' :: rest) := by
  simp [Delimited]

theorem delimited_bracket (rest : List Char) : Delimited (']' :: rest) := by
  simp [Delimited]

/-- Whether a text is read as a value, in front of whatever may follow it, or is refused if there
is something wrong with the value. -/
def Recovers (read : Reader α) (text : List Char) (good : Bool) (a : α) : Prop :=
  ∀ rest, Delimited rest → Yields good a rest (read (text ++ rest))

theorem Recovers.map {read : Reader α} {text : List Char} {good : Bool} {a : α}
    (h : Recovers read text good a) (f : α → β) :
    Recovers (fun s => do return (← read s).map f) text good (f a) :=
  fun rest hrest => (h rest hrest).map fun _ => ⟨rfl, rfl⟩

/-- Whether the first character of a text that is no blank is no closing bracket either. -/
def Solid (text : List Char) : Prop :=
  ∃ c more, skipBlank text = c :: more ∧ c ≠ ']'

section

variable {c : Char}

theorem nextChar_cons (hc : isBlank c = false) (s : List Char) :
    nextChar (c :: s) = some ⟨c, s, Nat.lt_succ_self _⟩ := by
  rw [nextChar, if_neg (by simp [hc])]

theorem skipBlank_cons (hc : isBlank c = false) (s : List Char) : skipBlank (c :: s) = c :: s := by
  rw [skipBlank, List.dropWhile_cons_of_neg (by simp [hc])]

end

theorem exists_nextChar {c : Char} {more : List Char} (h : skipBlank s = c :: more) :
    ∃ hshorter, nextChar s = some ⟨c, more, hshorter⟩ := by
  induction s with
  | nil => cases h
  | cons d s ih =>
      cases hd : isBlank d with
      | true =>
          rw [skipBlank, List.dropWhile_cons_of_pos hd] at h
          obtain ⟨hshorter, hnext⟩ := ih h
          rw [nextChar, if_pos hd, hnext]
          exact ⟨_, rfl⟩
      | false =>
          rw [skipBlank_cons hd] at h
          obtain ⟨rfl, rfl⟩ := List.cons.inj h
          exact ⟨_, nextChar_cons hd _⟩

theorem skipBlank_append (h : skipBlank s ≠ []) (rest : List Char) :
    skipBlank (s ++ rest) = skipBlank s ++ rest := by
  rw [skipBlank, List.dropWhile_append, if_neg (by simpa [skipBlank] using h)]
  rfl

section

variable {read : Reader α} {good : Bool} {a : α} {rest : List Char}

theorem yields_readBehindBlank_iff :
    Yields good a rest (readBehindBlank read s) ↔ Yields good a rest (read (skipBlank s)) := by
  unfold readBehindBlank
  cases read (skipBlank s) <;> exact Iff.rfl

theorem yields_readBehindBlank {c : Char} (hc : isBlank c = false)
    (h : Yields good a rest (read (c :: s))) :
    Yields good a rest (readBehindBlank read (c :: s)) := by
  rwa [yields_readBehindBlank_iff, skipBlank_cons hc]

end

end Raceway.Json
