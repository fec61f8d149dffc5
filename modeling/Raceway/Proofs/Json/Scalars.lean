import Raceway.Json.Writer
import Raceway.Proofs.Json.Delimiters
/-!
# Numbers and truth values read back

Every finite double is read back from its text, zeros with their signs, wherever the text stands.
A double that is not finite is written as `null`, which is not read as a double.
-/

namespace Raceway.Json

open Decimal (Numeral Style)
open Float.Model.UnpackedFloat (Sign)

/-! ## Numerals -/

theorem exists_head_number (sign : Sign) (n : Numeral) :
    ∃ c more, Style.signText sign ++ n.text = c :: more ∧ startsNumber c = true ∧
      isBlank c = false ∧ c ≠ ']' := by
  cases sign with
  | negative => exact ⟨'-', n.text, rfl, by decide⟩
  | positive =>
      obtain ⟨c, more, htext, hc⟩ := exists_text_eq_cons n
      refine ⟨c, more, htext, by simp [startsNumber, hc], ?_, ?_⟩
      · by_contra hblank
        simp only [Bool.not_eq_false, isBlank, Bool.or_eq_true, beq_iff_eq] at hblank
        rcases hblank with ((rfl | rfl) | rfl) | rfl <;> cases hc
      · rintro rfl
        cases hc

variable [NumberText]

theorem readNumber_append {sign : Sign} {n : Numeral} {v : Number} {rest : List Char}
    (hv : (n.literal (isNegative sign)).number = .ok v) (hrest : Delimited rest) :
    Yields true v rest (readNumber (Style.signText sign ++ (n.text ++ rest))) := by
  refine (readLiteral_append .endInValue sign n hrest).bind fun h => ?_
  simp only [hv, bind, Except.bind]
  exact ⟨rfl, rfl, rfl⟩

theorem recovers_number {sign : Sign} {n : Numeral} {v : Number} (expected : Expected)
    (hv : (n.literal (isNegative sign)).number = .ok v) :
    Recovers (readNumberAs expected) (Style.signText sign ++ n.text) true v := by
  intro rest hrest
  have hread := readNumber_append hv hrest
  obtain ⟨c, more, htext, hstart, hblank, -⟩ := exists_head_number sign n
  rw [← List.append_assoc, htext] at hread
  rw [htext]
  exact (yields_readNumberAs_iff (skipBlank_cons hblank _) hstart).mpr hread

theorem recovers_natural {n most : ℕ} (expected : Expected) (hn : n ≤ most)
    (hmost : most < UInt64.size) :
    Recovers (readNatural expected most) (writeNatural n) true n := by
  have hdigits : (Numeral.ofNat n).digits = n := by
    rw [Numeral.digits_eq, Numeral.ofNat, List.append_nil, Decimal.digitsValue_natText]
  have hnumber : ((Numeral.ofNat n).literal (isNegative .positive)).number = .ok (.natural n) := by
    have hwhole : ((Numeral.ofNat n).literal (isNegative .positive)).isWhole = true := rfl
    have hvalue : ((Numeral.ofNat n).literal (isNegative .positive)).digits = n := hdigits
    have hsign : ((Numeral.ofNat n).literal (isNegative .positive)).negative = false := rfl
    have hlt : n < UInt64.size := by omega
    simp [Literal.number, hwhole, hvalue, hsign, hlt]
  have htext : writeNatural n = Style.signText .positive ++ (Numeral.ofNat n).text :=
    (List.append_nil _).symm
  rw [htext]
  intro rest hrest
  refine (recovers_number expected hnumber rest hrest).bind fun h => ?_
  change Yields true n rest (if n ≤ most then _ else _)
  rw [if_pos hn]
  exact yields_ok

theorem recovers_boolean (b : Bool) : Recovers readBoolean (writeBoolean b) true b := by
  intro rest _
  cases b with
  | true => exact yields_readBehindBlank (by decide) ⟨rfl, rfl, rfl⟩
  | false => exact yields_readBehindBlank (by decide) ⟨rfl, rfl, rfl⟩

/-! ## Doubles -/

/-- What is relied on of the texts of doubles: the text of a finite double is read back as the
double, up to its end, and a double that is not finite is written as `null`. -/
structure NumberText.Faithful : Prop where
  reads_back : ∀ x : Float, x.isFinite = true → Yields true x [] (readDouble (writeDouble x))
  writes_null : ∀ x : Float, x.isFinite = false → writeDouble x = "null".toList

/-- A double is read back from its text exactly if it is finite. -/
theorem recovers_double (h : NumberText.Faithful) (x : Float) :
    Recovers readDouble (writeDouble x) x.isFinite x := by
  intro rest hrest
  cases hx : x.isFinite with
  | true => exact stops_readDouble hrest (h.reads_back x hx)
  | false =>
      rw [h.writes_null x hx]
      rfl

theorem solid_writeDouble (h : NumberText.Faithful) (x : Float) : Solid (writeDouble x) := by
  cases hx : x.isFinite with
  | true =>
      obtain ⟨⟨v, left, _⟩, hread, -⟩ := exists_of_yields_bind (h.reads_back x hx)
      obtain ⟨c, more, hskip, hstart⟩ :=
        exists_skipBlank_of_readNumberAs (yields_true_iff.mpr ⟨_, hread⟩)
      refine ⟨c, more, hskip, ?_⟩
      rintro rfl
      cases hstart
  | false =>
      rw [h.writes_null x hx]
      exact ⟨'n', "ull".toList, rfl, by decide⟩

end Raceway.Json
