import Raceway.Decimal.Nearest
import Raceway.Proofs.Decimal.Shortest
/-!
# Number texts

A number is written as a numeral: digits without leading zeros, and possibly digits behind a point
and an exponent.  Whichever notation is chosen for a decimal, the numeral stands for that decimal.
-/

namespace Raceway.Decimal

open Json (Literal digitsValue)

/-! ## Digits -/

theorem digitsValue_eq (digits : List Char) : digitsValue digits = Nat.ofDigitChars 10 digits 0 :=
  rfl

theorem digitsValue_append (digits more : List Char) :
    digitsValue (digits ++ more) = digitsValue digits * 10 ^ more.length + digitsValue more := by
  rw [digitsValue_eq, Nat.ofDigitChars_append, Nat.ofDigitChars_eq_ofDigitChars_zero, mul_comm]
  rfl

@[simp] theorem digitsValue_natText (n : ℕ) : digitsValue (natText n) = n :=
  Nat.ofDigitChars_ten_toDigits

@[simp] theorem digitsValue_zeros (n : ℕ) : digitsValue (List.replicate n '0') = 0 := by
  rw [digitsValue_eq, Nat.ofDigitChars_replicate_zero, mul_zero]

theorem isDigit_of_mem_natText {n : ℕ} {c : Char} (h : c ∈ natText n) : c.isDigit = true :=
  Nat.isDigit_of_mem_toDigits (by decide) (by decide) h

theorem natText_ne_nil (n : ℕ) : natText n ≠ [] :=
  Nat.toDigits_ne_nil

theorem head?_natText {n : ℕ} (hn : 0 < n) : (natText n).head? ≠ some '0' := by
  induction n using Nat.strong_induction_on with
  | _ n ih =>
      rw [natText, Nat.toDigits_eq_if (by decide)]
      split_ifs with hlt
      · interval_cases n <;> decide
      · rw [List.head?_append_of_ne_nil _ Nat.toDigits_ne_nil]
        exact ih (n / 10) (by omega) (by omega)

/-! ## Numerals -/

/-- What a number text consists of: the digits before the point, those behind it, if any, and the
exponent, if any. -/
structure Numeral where
  whole : List Char
  fraction : List Char
  exponent : Option ℤ
  whole_ne_nil : whole ≠ []
  isDigit_whole : ∀ c ∈ whole, c.isDigit = true
  isDigit_fraction : ∀ c ∈ fraction, c.isDigit = true
  /-- A zero in front stands alone. -/
  leading : whole.head? = some '0' → whole.length = 1

namespace Numeral

def fractionText : List Char → List Char
  | [] => []
  | digits => '.' :: digits

def exponentPart : Option ℤ → List Char
  | none => []
  | some e => 'e' :: exponentText e

/-- The text of a numeral without a sign. -/
def text (n : Numeral) : List Char :=
  n.whole ++ (fractionText n.fraction ++ exponentPart n.exponent)

/-- The literal that a numeral makes behind a sign. -/
def literal (n : Numeral) (negative : Bool) : Literal where
  negative := negative
  whole := n.whole
  fraction := n.fraction
  exponent := n.exponent

def digits (n : Numeral) : ℕ :=
  (n.literal false).digits

def scale (n : Numeral) : ℤ :=
  (n.literal false).scale

/-- Whether there is neither point nor exponent. -/
def isWhole (n : Numeral) : Bool :=
  (n.literal false).isWhole

/-- The number that a numeral stands for. -/
def value (n : Numeral) : ℚ :=
  n.digits * 10 ^ n.scale

theorem digits_eq (n : Numeral) : n.digits = digitsValue (n.whole ++ n.fraction) := rfl

theorem scale_eq (n : Numeral) : n.scale = n.exponent.getD 0 - n.fraction.length := rfl

theorem isWhole_eq (n : Numeral) : n.isWhole = (n.fraction.isEmpty && n.exponent.isNone) := rfl

/-- The digits of a natural number. -/
def ofNat (n : ℕ) : Numeral where
  whole := natText n
  fraction := []
  exponent := none
  whole_ne_nil := natText_ne_nil n
  isDigit_whole _ := isDigit_of_mem_natText
  isDigit_fraction := by simp
  leading h := by
    obtain rfl : n = 0 := by
      by_contra hn
      exact head?_natText (Nat.pos_of_ne_zero hn) h
    rfl

/-- The digits `0.0`. -/
def zero : Numeral where
  whole := ['0']
  fraction := ['0']
  exponent := none
  whole_ne_nil := by simp
  isDigit_whole := by simp
  isDigit_fraction := by simp
  leading _ := rfl

theorem fractionText_of_ne_nil {digits : List Char} (h : digits ≠ []) :
    fractionText digits = '.' :: digits := by
  cases digits with
  | nil => exact absurd rfl h
  | cons c digits => rfl

theorem value_eq {n : Numeral} {m j : ℕ} {e : ℤ} (hdigits : n.digits = m * 10 ^ j)
    (hscale : n.scale + j = e) : n.value = m * 10 ^ e := by
  rw [value, hdigits, ← hscale, zpow_add₀ (by norm_num), zpow_natCast]
  push_cast
  ring

end Numeral

/-! ## Notations -/

section

variable {digits : List Char}

theorem exists_numeral_below_one (hne : digits ≠ []) (hdigits : ∀ c ∈ digits, c.isDigit = true)
    {point : ℤ} (hpoint : point ≤ 0) :
    ∃ n : Numeral, n.text = scientific.positional digits point ∧ n.isWhole = false ∧
      n.value = digitsValue digits * 10 ^ (point - digits.length) := by
  have hfraction : List.replicate (-point).toNat '0' ++ digits ≠ [] := by simp [hne]
  refine ⟨⟨['0'], List.replicate (-point).toNat '0' ++ digits, none, by simp, by simp, ?_,
    fun _ => rfl⟩, ?_, ?_, ?_⟩
  · intro c hc
    rcases List.mem_append.mp hc with hc | hc
    · rw [List.eq_of_mem_replicate hc]
      rfl
    · exact hdigits c hc
  · rw [Numeral.text, Numeral.fractionText_of_ne_nil hfraction, Style.positional, if_pos hpoint]
    simp [Numeral.exponentPart]
  · simp [Numeral.isWhole_eq, hne]
  · apply Numeral.value_eq (j := 0)
    · have hzeros := digitsValue_zeros ((-point).toNat + 1)
      rw [Numeral.digits_eq, ← List.append_assoc, List.singleton_append, ← List.replicate_succ,
        digitsValue_append, hzeros, pow_zero, mul_one, zero_mul, zero_add]
    · simp only [Numeral.scale_eq, Option.getD_none, List.length_append, List.length_replicate]
      omega

theorem exists_numeral_whole (hne : digits ≠ []) (hdigits : ∀ c ∈ digits, c.isDigit = true)
    (hhead : digits.head? ≠ some '0') {point : ℤ} (hpoint : digits.length ≤ point.toNat) :
    ∃ n : Numeral, n.text = scientific.positional digits point ∧ n.isWhole = false ∧
      n.value = digitsValue digits * 10 ^ (point - digits.length) := by
  have hlength : 0 < digits.length := List.length_pos_of_ne_nil hne
  refine ⟨⟨digits ++ List.replicate (point.toNat - digits.length) '0', ['0'], none, by simp [hne],
    ?_, by simp, ?_⟩, ?_, ?_, ?_⟩
  · intro c hc
    rcases List.mem_append.mp hc with hc | hc
    · exact hdigits c hc
    · rw [List.eq_of_mem_replicate hc]
      rfl
  · intro h
    rw [List.head?_append_of_ne_nil _ hne] at h
    exact absurd h hhead
  · rw [Style.positional, if_neg (by omega), if_pos hpoint]
    rfl
  · rfl
  · apply Numeral.value_eq (j := point.toNat - digits.length + 1)
    · have hzeros := digitsValue_zeros (point.toNat - digits.length + 1)
      rw [Numeral.digits_eq, List.append_assoc, ← List.replicate_succ', digitsValue_append, hzeros,
        List.length_replicate, add_zero]
    · simp only [Numeral.scale_eq, Option.getD_none, List.length_singleton]
      omega

theorem exists_numeral_inside (hdigits : ∀ c ∈ digits, c.isDigit = true)
    (hhead : digits.head? ≠ some '0') {point : ℤ} (hpos : 0 < point)
    (hpoint : point.toNat < digits.length) :
    ∃ n : Numeral, n.text = scientific.positional digits point ∧ n.isWhole = false ∧
      n.value = digitsValue digits * 10 ^ (point - digits.length) := by
  have hwhole : digits.take point.toNat ≠ [] :=
    List.ne_nil_of_length_pos (by rw [List.length_take]; omega)
  have hfraction : digits.drop point.toNat ≠ [] :=
    List.ne_nil_of_length_pos (by rw [List.length_drop]; omega)
  refine ⟨⟨digits.take point.toNat, digits.drop point.toNat, none, hwhole,
    fun c hc => hdigits c (List.mem_of_mem_take hc),
    fun c hc => hdigits c (List.mem_of_mem_drop hc), ?_⟩, ?_, ?_, ?_⟩
  · intro h
    rw [List.head?_take, if_neg (by omega)] at h
    exact absurd h hhead
  · rw [Numeral.text, Numeral.fractionText_of_ne_nil hfraction]
    simp [Style.positional, Numeral.exponentPart, not_le.mpr hpos, not_le.mpr hpoint]
  · simp [Numeral.isWhole_eq, hpoint]
  · apply Numeral.value_eq (j := 0)
    · rw [Numeral.digits_eq, List.take_append_drop, pow_zero, mul_one]
    · simp only [Numeral.scale_eq, Option.getD_none, List.length_drop]
      omega

theorem exists_numeral_exponent (hne : digits ≠ []) (hdigits : ∀ c ∈ digits, c.isDigit = true)
    (hhead : digits.head? ≠ some '0') (e : ℤ) :
    ∃ n : Numeral, n.text = Style.withExponent digits e ∧ n.isWhole = false ∧
      n.value = digitsValue digits * 10 ^ (e + 1 - digits.length) := by
  cases digits with
  | nil => exact absurd rfl hne
  | cons c digits =>
      refine ⟨⟨[c], digits, some e, by simp, ?_, ?_, fun _ => rfl⟩, ?_, ?_, ?_⟩
      · intro d hd
        rw [List.mem_singleton.mp hd]
        exact hdigits c List.mem_cons_self
      · exact fun d hd => hdigits d (List.mem_cons_of_mem c hd)
      · cases digits <;> rfl
      · simp [Numeral.isWhole_eq]
      · apply Numeral.value_eq (j := 0)
        · rw [Numeral.digits_eq, List.singleton_append, pow_zero, mul_one]
        · simp only [Numeral.scale_eq, Option.getD_some, List.length_cons]
          omega

end

/-- The text of a decimal is a numeral that stands for it, and has a point or an exponent. -/
theorem exists_numeral {d : Digits} (hd : 0 < d.digits) :
    ∃ n : Numeral, n.text = scientific.decimal d ∧ n.isWhole = false ∧ n.value = d.value := by
  have hne := natText_ne_nil d.digits
  have hdigits : ∀ c ∈ natText d.digits, c.isDigit = true := fun c => isDigit_of_mem_natText
  have hhead := head?_natText hd
  obtain ⟨point, hpoint⟩ : ∃ point, point = (natText d.digits).length + d.scale := ⟨_, rfl⟩
  have hvalue : d.value =
      digitsValue (natText d.digits) * 10 ^ (point - (natText d.digits).length) := by
    rw [digitsValue_natText, hpoint, add_sub_cancel_left, Digits.value]
  have hdecimal : scientific.decimal d = if scientific.isPlain (point - 1) then
      scientific.positional (natText d.digits) point
      else Style.withExponent (natText d.digits) (point - 1) := by
    rw [hpoint]
    rfl
  rw [hdecimal, hvalue]
  split_ifs
  · rcases le_or_gt point 0 with hzero | hpos
    · exact exists_numeral_below_one hne hdigits hzero
    rcases Nat.lt_or_ge point.toNat (natText d.digits).length with hlt | hge
    · exact exists_numeral_inside hdigits hhead hpos hlt
    · exact exists_numeral_whole hne hdigits hhead hge
  · have h := exists_numeral_exponent hne hdigits hhead (point - 1)
    rwa [sub_add_cancel] at h

end Raceway.Decimal
