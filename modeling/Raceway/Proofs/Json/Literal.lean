import Raceway.Json.Number
import Raceway.Proofs.Decimal.Text
import Raceway.Proofs.Json.Reading
/-!
# Reading numerals

A numeral is taken off the front of a text as it was written, digit by digit and part by part.
-/

namespace Raceway.Json

open Decimal (Numeral Style natText exponentText)
open Float.Model.UnpackedFloat (Sign)

variable (cut : Fault) {digits rest : List Char}

/-! ## Runs of digits -/

theorem takeWhile_isDigit_append (hrest : ∀ c ∈ rest.head?, c.isDigit = false) (s : List Char) :
    (s ++ rest).takeWhile Char.isDigit = s.takeWhile Char.isDigit := by
  induction s with
  | nil =>
      cases rest with
      | nil => rfl
      | cons c rest => exact List.takeWhile_cons_of_neg (by simp [hrest c rfl])
  | cons c s ih => rw [List.cons_append, List.takeWhile_cons, List.takeWhile_cons, ih]

theorem dropWhile_isDigit_append (hrest : ∀ c ∈ rest.head?, c.isDigit = false) (s : List Char) :
    (s ++ rest).dropWhile Char.isDigit = s.dropWhile Char.isDigit ++ rest := by
  induction s with
  | nil =>
      cases rest with
      | nil => rfl
      | cons c rest => exact List.dropWhile_cons_of_neg (by simp [hrest c rfl])
  | cons c s ih =>
      rw [List.cons_append, List.dropWhile_cons, List.dropWhile_cons, ih]
      split_ifs <;> rfl

theorem yields_readDigits_append {s left : List Char}
    (hrest : ∀ c ∈ rest.head?, c.isDigit = false) (h : Yields true digits left (readDigits cut s)) :
    Yields true digits (left ++ rest) (readDigits cut (s ++ rest)) := by
  cases s with
  | nil => cases h
  | cons c s =>
      rw [readDigits] at h
      rw [List.cons_append, readDigits]
      split_ifs at h ⊢
      · obtain ⟨-, rfl, rfl⟩ := h
        refine ⟨rfl, ?_, dropWhile_isDigit_append hrest s⟩
        exact congrArg (List.cons c) (takeWhile_isDigit_append hrest s)
      · cases h

theorem readDigits_append (hne : digits ≠ []) (hdigits : ∀ c ∈ digits, c.isDigit = true)
    (hrest : ∀ c ∈ rest.head?, c.isDigit = false) :
    Yields true digits rest (readDigits cut (digits ++ rest)) := by
  have hread : Yields true digits [] (readDigits cut digits) := by
    cases digits with
    | nil => exact absurd rfl hne
    | cons c digits =>
        rw [List.forall_mem_cons] at hdigits
        rw [readDigits, if_pos hdigits.1]
        refine ⟨rfl, ?_, List.dropWhile_eq_nil_iff.mpr hdigits.2⟩
        exact congrArg (List.cons c) (List.takeWhile_eq_self_iff.mpr hdigits.2)
  exact yields_readDigits_append cut hrest hread

theorem readWhole_append (hne : digits ≠ []) (hdigits : ∀ c ∈ digits, c.isDigit = true)
    (hleading : digits.head? = some '0' → digits.length = 1)
    (hrest : ∀ c ∈ rest.head?, c.isDigit = false) :
    Yields true digits rest (readWhole cut (digits ++ rest)) := by
  refine (readDigits_append cut hne hdigits hrest).bind fun h => ?_
  rw [if_neg]
  · exact yields_ok
  · simpa using hleading

/-! ## The parts of a numeral -/

theorem readFraction_of_head (h : ∀ c ∈ rest.head?, c ≠ '.') :
    readFraction cut rest = .ok (.missing []) := by
  unfold readFraction
  split
  · exact absurd rfl (h '.' rfl)
  · rfl

theorem readFraction_append (hdigits : ∀ c ∈ digits, c.isDigit = true)
    (hrest : ∀ c ∈ rest.head?, c.isDigit = false ∧ c ≠ '.') :
    ∃ h, readFraction cut (Numeral.fractionText digits ++ rest) =
      .ok ⟨digits, rest, h⟩ := by
  cases digits with
  | nil => exact ⟨Nat.le.refl, readFraction_of_head cut fun c hc => (hrest c hc).2⟩
  | cons c digits =>
      obtain ⟨h, hread⟩ := yields_true_iff.mp
        (readDigits_append cut (List.cons_ne_nil c digits) hdigits fun d hd => (hrest d hd).1)
      refine ⟨Nat.le_of_lt (Nat.lt_succ_of_lt h), ?_⟩
      change (readDigits cut (c :: digits ++ rest) >>= _) = _
      rw [hread]
      rfl

theorem readSigned_append (e : ℤ) (hrest : ∀ c ∈ rest.head?, c.isDigit = false) :
    Yields true e rest (readSigned cut (exponentText e ++ rest)) := by
  have hdigits (n : ℕ) : Yields true (natText n) rest (readDigits cut (natText n ++ rest)) :=
    readDigits_append cut (Decimal.natText_ne_nil n) (fun c => Decimal.isDigit_of_mem_natText) hrest
  cases e with
  | ofNat n =>
      refine (hdigits n).map fun _ => ⟨?_, rfl⟩
      exact congrArg Int.ofNat (Decimal.digitsValue_natText n)
  | negSucc n =>
      refine (hdigits (n + 1)).map fun _ => ⟨?_, rfl⟩
      exact congrArg (fun m : ℕ => -(m : ℤ)) (Decimal.digitsValue_natText (n + 1))

theorem readExponent_of_head (h : ∀ c ∈ rest.head?, c ≠ 'e' ∧ c ≠ 'E') :
    readExponent cut rest = .ok (.missing none) := by
  cases rest with
  | nil => rfl
  | cons c rest =>
      have hc := h c rfl
      rw [readExponent, if_neg]
      simpa using hc

theorem readExponent_append (e : Option ℤ)
    (hrest : ∀ c ∈ rest.head?, c.isDigit = false ∧ c ≠ 'e' ∧ c ≠ 'E') :
    ∃ h, readExponent cut (Numeral.exponentPart e ++ rest) = .ok ⟨e, rest, h⟩ := by
  cases e with
  | none => exact ⟨Nat.le.refl, readExponent_of_head cut fun c hc => (hrest c hc).2⟩
  | some e =>
      obtain ⟨h, hread⟩ := yields_true_iff.mp
        (readSigned_append cut e fun c hc => (hrest c hc).1)
      refine ⟨Nat.le_of_lt (Nat.lt_succ_of_lt h), ?_⟩
      change (readSigned cut (exponentText e ++ rest) >>= _) = _
      rw [hread]
      rfl

/-! ## Literals -/

theorem Delimited.not_number (h : Delimited rest) :
    ∀ c ∈ rest.head?, c.isDigit = false ∧ c ≠ '.' ∧ c ≠ 'e' ∧ c ≠ 'E' := by
  intro c hc
  rcases h c hc with rfl | rfl | rfl <;> decide

theorem readUnsigned_append (negative : Bool) (n : Numeral) (hrest : Delimited rest) :
    Yields true (n.literal negative) rest (readUnsigned cut negative (n.text ++ rest)) := by
  have hend := hrest.not_number
  have hexponent : ∀ c ∈ (Numeral.exponentPart n.exponent ++ rest).head?,
      c.isDigit = false ∧ c ≠ '.' := by
    cases n.exponent with
    | none => exact fun c hc => ⟨(hend c hc).1, (hend c hc).2.1⟩
    | some e => simp [Numeral.exponentPart]
  have hfraction : ∀ c ∈ (Numeral.fractionText n.fraction ++
      (Numeral.exponentPart n.exponent ++ rest)).head?, c.isDigit = false := by
    cases n.fraction with
    | nil => exact fun c hc => (hexponent c hc).1
    | cons c digits => simp [Numeral.fractionText]
  obtain ⟨hle, hreadFraction⟩ := readFraction_append cut n.isDigit_fraction hexponent
  obtain ⟨hle', hreadExponent⟩ := readExponent_append cut n.exponent
    fun c hc => ⟨(hend c hc).1, (hend c hc).2.2⟩
  rw [Numeral.text, List.append_assoc, List.append_assoc]
  refine (readWhole_append cut n.whole_ne_nil n.isDigit_whole n.leading hfraction).bind fun h => ?_
  simp only [hreadFraction, hreadExponent, bind, Except.bind]
  exact yields_ok

theorem exists_text_eq_cons (n : Numeral) :
    ∃ c more, n.text = c :: more ∧ c.isDigit = true := by
  obtain ⟨c, digits, hwhole⟩ := List.exists_cons_of_ne_nil n.whole_ne_nil
  refine ⟨c, digits ++ _, by rw [Numeral.text, hwhole, List.cons_append], ?_⟩
  apply n.isDigit_whole
  rw [hwhole]
  exact List.mem_cons_self

theorem readLiteral_of_ne {c : Char} (hc : c ≠ '-') (s : List Char) :
    readLiteral cut (c :: s) = readUnsigned cut false (c :: s) := by
  rw [readLiteral]
  simpa using hc

/-- Whether a number with this sign is read as a negative one. -/
def isNegative : Sign → Bool
  | .negative => true
  | .positive => false

theorem readLiteral_append (sign : Sign) (n : Numeral) (hrest : Delimited rest) :
    Yields true (n.literal (isNegative sign)) rest
      (readLiteral cut (Style.signText sign ++ (n.text ++ rest))) := by
  cases sign with
  | negative => exact (readUnsigned_append cut true n hrest).map fun _ => ⟨rfl, rfl⟩
  | positive =>
      have hread := readUnsigned_append cut false n hrest
      obtain ⟨c, more, htext, hc⟩ := exists_text_eq_cons n
      rw [Style.signText, List.nil_append]
      rw [htext, List.cons_append] at hread ⊢
      rw [readLiteral_of_ne cut]
      · exact hread
      · rintro rfl
        cases hc

end Raceway.Json
