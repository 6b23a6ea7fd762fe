import KeypadCalculator.Number.Format
import KeypadCalculator.Proofs.Number.PlainNumeral
import KeypadCalculator.Proofs.Number.Value

/-!
# The layout of digits

A decimal is laid out from its significant digits and the power of ten that the first of them
counts. Both layouts are made of plain numerals: the positional one is a plain numeral that denotes
the decimal (`isLayout_positional`), the scientific one is a plain numeral with a
whole number as its exponent (`exists_scientific_eq`).
-/

namespace KeypadCalculator

open Numeral (IsPlain IsWhole pointed)

/-! ## Digits of natural numbers -/

theorem head?_toDigits_ne {n : ℕ} (h : 0 < n) : (Nat.toDigits 10 n).head? ≠ some '0' := by
  induction n using Nat.strongRecOn with
  | ind n ih =>
    rw [Nat.toDigits_eq_if (by decide)]
    by_cases hn : n < 10
    · rw [if_pos hn]
      interval_cases n <;> decide
    · rw [if_neg hn, List.head?_append_of_ne_nil _ Nat.toDigits_ne_nil]
      exact ih (n / 10) (by omega) (by omega)

theorem isWhole_toDigits (n : ℕ) : IsWhole (Nat.toDigits 10 n) := by
  refine ⟨fun c hc => Nat.isDigit_of_mem_toDigits (by decide) (by decide) hc,
    Nat.toDigits_ne_nil, ?_⟩
  by_cases hn : n = 0
  · subst hn
    exact .inl rfl
  · exact .inr (head?_toDigits_ne (by omega))

/-- Digits of a number of which the first one counts. -/
structure Decimal.IsSignificant (text : List Char) : Prop where
  digits : ∀ c ∈ text, c.isDigit = true
  nonempty : text ≠ []
  head : text.head? ≠ some '0'

namespace Decimal

variable {d : Decimal}

/-- The digits of a decimal are the significant ones and the zeros after them. -/
theorem exists_toDigits_eq (d : Decimal) :
    ∃ zeros, Nat.toDigits 10 d.digits = d.significant ++ List.replicate zeros '0' := by
  have hsplit := List.rdropWhile_append_rtakeWhile (p := (· == '0')) (l := Nat.toDigits 10 d.digits)
  have hall : ∀ c ∈ (Nat.toDigits 10 d.digits).rtakeWhile (· == '0'), c = '0' := by
    intro c hc
    simpa using List.mem_rtakeWhile_imp hc
  rw [List.eq_replicate_of_mem hall] at hsplit
  exact ⟨_, hsplit.symm⟩

theorem isSignificant_significant (h : 0 < d.digits) : IsSignificant d.significant := by
  obtain ⟨zeros, hzeros⟩ := d.exists_toDigits_eq
  have hhead := head?_toDigits_ne h
  -- were there no significant digits, the first digit would be one of the zeros
  have hne : d.significant ≠ [] := by
    intro hnil
    have hall : Nat.toDigits 10 d.digits ≠ [] := Nat.toDigits_ne_nil
    rw [hzeros, hnil, List.nil_append] at hhead hall
    rw [List.head?_replicate, if_neg (by simpa using hall)] at hhead
    exact hhead rfl
  refine ⟨fun c hc => ?_, hne, ?_⟩
  · apply Nat.isDigit_of_mem_toDigits (b := 10) (n := d.digits) (by decide) (by decide)
    rw [hzeros]
    exact List.mem_append_left _ hc
  · rwa [hzeros, List.head?_append_of_ne_nil _ hne] at hhead

theorem IsSignificant.isWhole_head {first : Char} {rest : List Char}
    (h : IsSignificant (first :: rest)) : IsWhole [first] := by
  refine ⟨fun c hc => ?_, List.cons_ne_nil _ _, .inr h.head⟩
  rw [List.mem_singleton.1 hc]
  exact h.digits first (List.mem_cons_self ..)

/-- The last significant digit counts, too. -/
theorem getLast?_significant_ne (d : Decimal) : d.significant.getLast? ≠ some '0' := by
  intro hlast
  rw [significant, List.getLast?_reverse] at hlast
  have hcounts := List.head?_dropWhile_not (· == '0') (Nat.toDigits 10 d.digits).reverse
  rw [hlast] at hcounts
  exact absurd hcounts (by decide)

/-- The significant digits with the place of their first one denote the decimal. -/
theorem value_significant (d : Decimal) : value ⟨Nat.ofDigitChars 10 d.significant 0,
    d.exponentOfFirst + 1 - d.significant.length⟩ = d.value := by
  obtain ⟨zeros, hzeros⟩ := d.exists_toDigits_eq
  have hdigits : d.digits = 10 ^ zeros * Nat.ofDigitChars 10 d.significant 0 := by
    rw [← Nat.ofDigitChars_replicate_zero, ← Nat.ofDigitChars_append, ← hzeros,
      Nat.ofDigitChars_toDigits (by decide) (by decide)]
  have hlength : (Nat.toDigits 10 d.digits).length = d.significant.length + zeros := by
    rw [hzeros, List.length_append, List.length_replicate]
  have hexponent : d.exponentOfFirst + 1 - d.significant.length = zeros + d.exponent := by
    rw [exponentOfFirst, hlength]
    push_cast
    ring
  rw [value, value, hexponent, zpow_add₀ (by norm_num), zpow_natCast]
  conv_rhs => rw [hdigits]
  push_cast
  ring

end Decimal

namespace NumberFormat

open Decimal (IsSignificant value)

variable {format : NumberFormat} {digits : List Char} {exponent : ℤ}

/-! ## Positional form -/

/-- `IsLayout text digits exponent` says that the text consists of whole digits and a fraction, and
that these are the digits with zeros before or after them, and the point where it belongs when the
first digit counts `10 ^ exponent`. -/
def IsLayout (text digits : List Char) (exponent : ℤ) : Prop :=
  ∃ whole fraction, text = pointed whole fraction ∧ IsWhole whole ∧
    (∀ c ∈ fraction, c.isDigit = true) ∧
    value ⟨Nat.ofDigitChars 10 (whole ++ fraction) 0, -(fraction.length : ℤ)⟩
      = value ⟨Nat.ofDigitChars 10 digits 0, exponent + 1 - digits.length⟩

theorem positional_of_neg (hne : digits ≠ []) (h : exponent < 0) :
    format.positional digits exponent
      = pointed ['0'] (List.replicate ((-exponent).toNat - 1) '0' ++ digits) := by
  rw [positional, if_pos h, pointed, if_neg (by simp [hne])]
  rfl

theorem positional_of_nonneg (hformat : format.wholeEnding = []) (h : 0 ≤ exponent) :
    format.positional digits exponent = pointed
      (digits.take (exponent.toNat + 1)
        ++ List.replicate (exponent.toNat + 1 - digits.length) '0')
      (digits.drop (exponent.toNat + 1)) := by
  rw [positional, if_neg (by omega)]
  dsimp only
  cases hdrop : digits.drop (exponent.toNat + 1) with
  | nil => rw [hformat, List.append_nil, pointed, if_pos rfl]
  | cons c rest => rw [pointed, if_neg (List.cons_ne_nil c rest)]

theorem isDigit_of_mem_replicate_zero {c : Char} {n : ℕ} (h : c ∈ List.replicate n '0') :
    c.isDigit = true := by
  rw [List.eq_of_mem_replicate h]
  rfl

/-- Below one, zeros before the digits change nothing but their place. -/
theorem isLayout_of_neg (h : IsSignificant digits) (hneg : exponent < 0) :
    IsLayout (format.positional digits exponent) digits exponent := by
  refine ⟨['0'], _, positional_of_neg h.nonempty hneg, ⟨by simp, by simp, .inl rfl⟩, ?_, ?_⟩
  · intro c hc
    rcases List.mem_append.1 hc with hc | hc
    · exact isDigit_of_mem_replicate_zero hc
    · exact h.digits c hc
  · have hdigits (n : ℕ) : Nat.ofDigitChars 10 (['0'] ++ (List.replicate n '0' ++ digits)) 0
        = Nat.ofDigitChars 10 digits 0 := by
      rw [Nat.ofDigitChars_append, Nat.ofDigitChars_append, Nat.ofDigitChars_replicate_zero]
      rfl
    have hplaces : -((List.replicate ((-exponent).toNat - 1) '0' ++ digits).length : ℤ)
        = exponent + 1 - digits.length := by
      rw [List.length_append, List.length_replicate]
      omega
    rw [hdigits, hplaces]

/-- The first digits, with zeros if there are too few, make a whole number. -/
theorem isWhole_take_append {places : ℕ} (h : IsSignificant digits) (hplaces : 0 < places) :
    IsWhole (digits.take places ++ List.replicate (places - digits.length) '0') := by
  have hne : digits.take places ≠ [] := by
    simp [h.nonempty, Nat.ne_of_gt hplaces]
  refine ⟨fun c hc => ?_, List.append_ne_nil_of_left_ne_nil hne _, .inr ?_⟩
  · rcases List.mem_append.1 hc with hc | hc
    · exact h.digits c (List.mem_of_mem_take hc)
    · exact isDigit_of_mem_replicate_zero hc
  · rw [List.head?_append_of_ne_nil _ hne, List.head?_take, if_neg (Nat.ne_of_gt hplaces)]
    exact h.head

/-- From one on, zeros after the digits take the place of a fraction. -/
theorem isLayout_of_nonneg (hformat : format.wholeEnding = []) (h : IsSignificant digits)
    (hnonneg : 0 ≤ exponent) : IsLayout (format.positional digits exponent) digits exponent := by
  refine ⟨_, _, positional_of_nonneg hformat hnonneg, isWhole_take_append h (Nat.succ_pos _), ?_, ?_⟩
  · exact fun c hc => h.digits c (List.mem_of_mem_drop hc)
  · have hdigits : Nat.ofDigitChars 10 (digits.take (exponent.toNat + 1)
          ++ List.replicate (exponent.toNat + 1 - digits.length) '0'
          ++ digits.drop (exponent.toNat + 1)) 0
        = 10 ^ (exponent.toNat + 1 - digits.length) * Nat.ofDigitChars 10 digits 0 := by
      by_cases hlong : exponent.toNat + 1 ≤ digits.length
      · rw [Nat.sub_eq_zero_of_le hlong, List.replicate_zero, List.append_nil,
          List.take_append_drop, Nat.pow_zero, Nat.one_mul]
      · rw [List.take_of_length_le (by omega), List.drop_of_length_le (by omega), List.append_nil,
          Nat.ofDigitChars_append, Nat.ofDigitChars_replicate_zero]
    have hplaces : exponent + 1 - digits.length
        = ((exponent.toNat + 1 - digits.length : ℕ) : ℤ)
          + -((digits.drop (exponent.toNat + 1)).length : ℤ) := by
      rw [List.length_drop]
      omega
    rw [hdigits, hplaces, value, value, zpow_add₀ (by norm_num), zpow_natCast]
    push_cast
    ring

/-- The positional form lays out the digits given. -/
theorem isLayout_positional (hformat : format.wholeEnding = []) (h : IsSignificant digits)
    (exponent : ℤ) : IsLayout (format.positional digits exponent) digits exponent := by
  by_cases hneg : exponent < 0
  · exact isLayout_of_neg h hneg
  · exact isLayout_of_nonneg hformat h (by omega)

/-! ## Scientific form -/

/-- The scientific form has the point behind the first digit, and the exponent at the end. -/
theorem scientific_cons (format : NumberFormat) (first : Char) (rest : List Char) (exponent : ℤ) :
    format.scientific (first :: rest) exponent = pointed [first] rest ++ 'e' ::
      ((if exponent < 0 then ['-'] else format.exponentSign)
        ++ Nat.toDigits 10 exponent.natAbs) := by
  cases rest with
  | nil => rfl
  | cons next rest => rfl

/-- The scientific form consists of a plain numeral and, after the sign, a whole number. -/
theorem exists_scientific_eq (format : NumberFormat) (h : IsSignificant digits) (exponent : ℤ) :
    ∃ significand, IsPlain significand ∧ format.scientific digits exponent = significand ++ 'e' ::
      ((if exponent < 0 then ['-'] else format.exponentSign)
        ++ Nat.toDigits 10 exponent.natAbs) := by
  obtain ⟨first, rest, rfl⟩ := List.exists_cons_of_ne_nil h.nonempty
  exact ⟨pointed [first] rest, Numeral.isPlain_pointed h.isWhole_head fun c hc =>
    h.digits c (List.mem_cons_of_mem _ hc), format.scientific_cons first rest exponent⟩

end NumberFormat
end KeypadCalculator
