import Raceway.Json.Scalar
import Raceway.Proofs.Json.Literal
/-!
# Numbers in front of a delimiter

A number ends where a character follows that cannot be part of it.  What a reader takes off a text
is therefore the same when a delimiter stands behind the text, however the number is written.
-/

namespace Raceway.Json

variable {α β : Type} {s left rest : List Char} (cut : Fault)

/-- Whether a reader takes the same off a text if a delimiter is put behind it. -/
def Stops (read : Reader α) : Prop :=
  ∀ ⦃s a left rest⦄, Delimited rest → Yields true a left (read s) →
    Yields true a (left ++ rest) (read (s ++ rest))

theorem Stops.map {read : Reader α} (hread : Stops read) (v : α → β) {t t' : List Char} {b : β}
    {f : Taken s α → Taken t β} {f' : Taken (s ++ rest) α → Taken t' β}
    (hf : ∀ x, (f x).value = v x.value ∧ (f x).rest = x.rest)
    (hf' : ∀ x, (f' x).value = v x.value ∧ (f' x).rest = x.rest) (hrest : Delimited rest)
    (h : Yields true b left (read s >>= fun x => pure (f x))) :
    Yields true b (left ++ rest) (read (s ++ rest) >>= fun x => pure (f' x)) := by
  obtain ⟨⟨a, more, hshorter⟩, hs, -, hvalue, hleft⟩ := exists_of_yields_bind h
  rw [(hf _).1] at hvalue
  rw [(hf _).2] at hleft
  subst hvalue hleft
  exact (hread hrest (yields_true_iff.mpr ⟨hshorter, hs⟩)).map fun _ => hf' _

/-! ## The parts of a literal -/

theorem stops_readDigits : Stops (readDigits cut) := by
  intro s digits left rest hrest h
  exact yields_readDigits_append cut (fun c hc => (hrest.not_number c hc).1) h

theorem stops_readWhole : Stops (readWhole cut) := by
  intro s digits left rest hrest h
  obtain ⟨⟨whole, more, _⟩, hread, h⟩ := exists_of_yields_bind h
  have hdigits := stops_readDigits cut hrest (yields_true_iff.mpr ⟨_, hread⟩)
  refine hdigits.bind_true fun _ => ?_
  split_ifs at h ⊢
  · exact h
  · obtain ⟨-, rfl, rfl⟩ := h
    exact yields_ok

/-- A part that is read behind its mark ends at the delimiter too. -/
theorem Stops.passed {read : Reader α} (hread : Stops read) (f : α → β) (mark : Char) {b : β}
    {hle : left.length ≤ (mark :: s).length} (hrest : Delimited rest)
    (h : (do
      let t ← read s
      return (⟨f t.value, t.rest, Nat.le_of_lt (Nat.lt_succ_of_lt t.shorter)⟩ :
        Passed (mark :: s) β)) = .ok ⟨b, left, hle⟩) :
    ∃ hle, (do
      let t ← read (s ++ rest)
      return (⟨f t.value, t.rest, Nat.le_of_lt (Nat.lt_succ_of_lt t.shorter)⟩ :
        Passed (mark :: (s ++ rest)) β)) = .ok ⟨b, left ++ rest, hle⟩ := by
  cases hs : read s with
  | error fault =>
      rw [hs] at h
      cases h
  | ok t =>
      rw [hs] at h
      cases h
      obtain ⟨hshorter, hread'⟩ :=
        yields_true_iff.mp (hread hrest (yields_true_iff.mpr ⟨t.shorter, hs⟩))
      rw [hread']
      exact ⟨_, rfl⟩

theorem readFraction_append_rest {digits : List Char} {hle : left.length ≤ s.length}
    (hrest : Delimited rest) (h : readFraction cut s = .ok ⟨digits, left, hle⟩) :
    ∃ hle, readFraction cut (s ++ rest) = .ok ⟨digits, left ++ rest, hle⟩ := by
  cases s with
  | nil =>
      cases h
      exact ⟨Nat.le.refl, readFraction_of_head cut fun c hc => (hrest.not_number c hc).2.1⟩
  | cons c s =>
      by_cases hc : c = '.'
      · subst hc
        exact (stops_readDigits cut).passed id '.' hrest h
      · have hhead (t : List Char) : ∀ d ∈ (c :: t).head?, d ≠ '.' := by simpa using hc
        rw [readFraction_of_head cut (hhead s)] at h
        cases h
        exact ⟨Nat.le.refl, readFraction_of_head cut (hhead (s ++ rest))⟩

theorem stops_readSigned : Stops (readSigned cut) := by
  intro s e left rest hrest h
  have hdigits := stops_readDigits cut
  cases s with
  | nil => cases h
  | cons c s =>
      by_cases hminus : c = '-'
      · subst hminus
        exact hdigits.map (fun digits => -(digitsValue digits : ℤ)) (fun _ => ⟨rfl, rfl⟩)
          (fun _ => ⟨rfl, rfl⟩) hrest h
      by_cases hplus : c = '+'
      · subst hplus
        exact hdigits.map (fun digits => (digitsValue digits : ℤ)) (fun _ => ⟨rfl, rfl⟩)
          (fun _ => ⟨rfl, rfl⟩) hrest h
      · have hsign (t : List Char) : readSigned cut (c :: t) =
            (do return (← readDigits cut (c :: t)).map fun digits => (digitsValue digits : ℤ)) := by
          rw [readSigned]
          · simpa using hminus
          · simpa using hplus
        rw [hsign] at h
        rw [List.cons_append, hsign]
        exact hdigits.map (fun digits => (digitsValue digits : ℤ)) (fun _ => ⟨rfl, rfl⟩)
          (fun _ => ⟨rfl, rfl⟩) hrest h

theorem readExponent_append_rest {e : Option ℤ} {hle : left.length ≤ s.length}
    (hrest : Delimited rest) (h : readExponent cut s = .ok ⟨e, left, hle⟩) :
    ∃ hle, readExponent cut (s ++ rest) = .ok ⟨e, left ++ rest, hle⟩ := by
  cases s with
  | nil =>
      cases h
      exact ⟨Nat.le.refl, readExponent_of_head cut fun c hc => (hrest.not_number c hc).2.2⟩
  | cons c s =>
      rw [readExponent] at h
      rw [List.cons_append, readExponent]
      split_ifs at h ⊢
      · exact (stops_readSigned cut).passed some c hrest h
      · cases h
        exact ⟨Nat.le.refl, rfl⟩

/-! ## Numbers -/

theorem stops_readUnsigned (negative : Bool) : Stops (readUnsigned cut negative) := by
  intro s l left rest hrest h
  obtain ⟨⟨whole, more, _⟩, hwhole, h⟩ := exists_of_yields_bind h
  obtain ⟨⟨places, more', _⟩, hfraction, h⟩ := exists_of_yields_bind h
  obtain ⟨⟨e, more'', _⟩, hexponent, -, rfl, rfl⟩ := exists_of_yields_bind h
  obtain ⟨_, hfraction'⟩ := readFraction_append_rest cut hrest hfraction
  obtain ⟨_, hexponent'⟩ := readExponent_append_rest cut hrest hexponent
  refine (stops_readWhole cut hrest (yields_true_iff.mpr ⟨_, hwhole⟩)).bind_true fun _ => ?_
  simp only [hfraction', hexponent', bind, Except.bind]
  exact yields_ok

theorem stops_readLiteral : Stops (readLiteral cut) := by
  intro s l left rest hrest h
  cases s with
  | nil => cases h
  | cons c s =>
      by_cases hminus : c = '-'
      · subst hminus
        obtain ⟨⟨l, left, _⟩, hread, -, rfl, rfl⟩ := exists_of_yields_bind h
        exact (stops_readUnsigned cut true hrest (yields_true_iff.mpr ⟨_, hread⟩)).map
          fun _ => ⟨rfl, rfl⟩
      · rw [readLiteral_of_ne cut hminus] at h
        rw [List.cons_append, readLiteral_of_ne cut hminus]
        exact stops_readUnsigned cut false hrest h

variable [NumberText]

theorem stops_readNumber : Stops readNumber := by
  intro s v left rest hrest h
  obtain ⟨⟨l, more, _⟩, hliteral, h⟩ := exists_of_yields_bind h
  obtain ⟨v', hnumber, -, rfl, rfl⟩ := exists_of_yields_bind h
  have hliteral' := stops_readLiteral .endInValue hrest (yields_true_iff.mpr ⟨_, hliteral⟩)
  refine hliteral'.bind_true fun _ => ?_
  simp only [hnumber, bind, Except.bind]
  exact yields_ok

theorem yields_readNumberAs_iff {expected : Expected} {good : Bool} {v : Number} {c : Char}
    {more : List Char} (hskip : skipBlank s = c :: more) (hstart : startsNumber c = true) :
    Yields good v left (readNumberAs expected s) ↔
      Yields good v left (readNumber (c :: more)) := by
  rw [readNumberAs, yields_readBehindBlank_iff, hskip, if_pos (by simpa using hstart)]

theorem exists_skipBlank_of_readNumberAs {expected : Expected} {v : Number}
    (h : Yields true v left (readNumberAs expected s)) :
    ∃ c more, skipBlank s = c :: more ∧ startsNumber c = true := by
  rw [readNumberAs, yields_readBehindBlank_iff] at h
  cases hskip : skipBlank s with
  | nil =>
      rw [hskip] at h
      cases h
  | cons c more =>
      refine ⟨c, more, rfl, ?_⟩
      by_contra hstart
      rw [hskip, if_neg (by simpa using hstart)] at h
      cases h

theorem stops_readNumberAs (expected : Expected) : Stops (readNumberAs expected) := by
  intro s v left rest hrest h
  obtain ⟨c, more, hskip, hstart⟩ := exists_skipBlank_of_readNumberAs h
  rw [yields_readNumberAs_iff hskip hstart] at h
  have hskip' : skipBlank (s ++ rest) = c :: (more ++ rest) := by
    rw [skipBlank_append (by simp [hskip]), hskip, List.cons_append]
  exact (yields_readNumberAs_iff hskip' hstart).mpr (stops_readNumber hrest h)

theorem stops_readDouble : Stops readDouble :=
  fun _ _ _ _ hrest h =>
    (stops_readNumberAs .double).map Number.toDouble (fun _ => ⟨rfl, rfl⟩) (fun _ => ⟨rfl, rfl⟩)
      hrest h

end Raceway.Json
