import KeypadCalculator.Proofs.Number.FewestDigits

/-!
# The form of a result

The two forms of the results other than zero, as regular expressions, and that every result is of its
form: `positionalForm` from `1e-6` up to below `1e21`, and `scientificForm` elsewhere
(`write_mem_form`). The forms have no idle zeros: a fraction does not end with a zero, and
an exponent is not zero.
-/

namespace KeypadCalculator

open Numeral (IsWhole pointed)

/-! ## Forms -/

namespace ResultForm

open RegularExpression (char)

variable {text whole fraction : List Char} {cs : List Char} {c : Char}

/-- One of the given characters. -/
def oneOf (cs : List Char) : RegularExpression Char :=
  (cs.map char).sum

/-- The given form, or nothing. -/
def optional (form : RegularExpression Char) : RegularExpression Char :=
  1 + form

def digit : RegularExpression Char :=
  oneOf ['0', '1', '2', '3', '4', '5', '6', '7', '8', '9']

def nonzeroDigit : RegularExpression Char :=
  oneOf ['1', '2', '3', '4', '5', '6', '7', '8', '9']

/-- A point and digits, the last of which is not zero. -/
def fractionForm : RegularExpression Char :=
  char '.' * (digit.star * nonzeroDigit)

/-- Digits of which the first is not zero. -/
def countForm : RegularExpression Char :=
  nonzeroDigit * digit.star

/-- The form `-?(0|[1-9][0-9]*)(.[0-9]*[1-9])?`. -/
def positionalForm : RegularExpression Char :=
  optional (char '-') * ((char '0' + countForm) * optional fractionForm)

/-- The form `-?[1-9](.[0-9]*[1-9])?e[+-][1-9][0-9]*`. -/
def scientificForm : RegularExpression Char :=
  optional (char '-')
    * (nonzeroDigit * optional fractionForm * (char 'e' * (oneOf ['+', '-'] * countForm)))

/-! ## Texts of a form -/

theorem mem_oneOf (h : c ∈ cs) : [c] ∈ (oneOf cs).matches' := by
  induction cs with
  | nil => cases h
  | cons d cs ih =>
    rw [oneOf, List.map_cons, List.sum_cons, RegularExpression.matches'_add, Language.mem_add,
      RegularExpression.matches'_char]
    rcases List.mem_cons.1 h with rfl | h
    · exact .inl rfl
    · exact .inr (ih h)

theorem append_mem_mul {P Q : RegularExpression Char} {a b : List Char} (ha : a ∈ P.matches')
    (hb : b ∈ Q.matches') : a ++ b ∈ (P * Q).matches' := by
  rw [RegularExpression.matches'_mul]
  exact Language.append_mem_mul ha hb

theorem mem_optional {P : RegularExpression Char} (h : text = [] ∨ text ∈ P.matches') :
    text ∈ (optional P).matches' := by
  rw [optional, RegularExpression.matches'_add, Language.mem_add, RegularExpression.matches'_epsilon,
    Language.mem_one]
  exact h

theorem mem_char (c : Char) : [c] ∈ (char c).matches' := rfl

theorem mem_digits_of_isDigit (h : c.isDigit = true) :
    c ∈ ['0', '1', '2', '3', '4', '5', '6', '7', '8', '9'] := by
  rw [Char.isDigit_iff_toNat] at h
  obtain ⟨hlow, hhigh⟩ := h
  rw [← Char.ofNat_toNat c]
  generalize c.toNat = n at hlow hhigh
  have : 48 ≤ n := hlow
  have : n ≤ 57 := hhigh
  interval_cases n <;> decide

theorem mem_digit (h : c.isDigit = true) : [c] ∈ digit.matches' :=
  mem_oneOf (mem_digits_of_isDigit h)

theorem mem_nonzeroDigit (h : c.isDigit = true) (hzero : c ≠ '0') : [c] ∈ nonzeroDigit.matches' :=
  mem_oneOf ((List.mem_cons.1 (mem_digits_of_isDigit h)).resolve_left hzero)

theorem mem_star_digit (h : ∀ c ∈ text, c.isDigit = true) : text ∈ digit.star.matches' := by
  rw [RegularExpression.matches'_star, Language.mem_kstar]
  refine ⟨text.map fun c => [c], ?_, fun piece hpiece => ?_⟩
  · rw [← List.flatMap_def, List.flatMap_singleton']
  · obtain ⟨c, hc, rfl⟩ := List.mem_map.1 hpiece
    exact mem_digit (h c hc)

theorem mem_countForm (h : IsWhole text) (hzero : text ≠ ['0']) : text ∈ countForm.matches' := by
  obtain ⟨first, rest, rfl⟩ := List.exists_cons_of_ne_nil h.nonempty
  have hhead := h.head.resolve_left hzero
  refine append_mem_mul (a := [first]) (mem_nonzeroDigit ?_ ?_) (mem_star_digit fun c hc => ?_)
  · exact h.digits first (List.mem_cons_self ..)
  · exact fun heq => hhead (congrArg some heq)
  · exact h.digits c (List.mem_cons_of_mem _ hc)

theorem mem_wholeForm (h : IsWhole text) : text ∈ (char '0' + countForm).matches' := by
  rw [RegularExpression.matches'_add, Language.mem_add]
  by_cases hzero : text = ['0']
  · exact .inl (hzero ▸ mem_char '0')
  · exact .inr (mem_countForm h hzero)

/-- Digits of a fraction of which the last one counts. -/
structure IsFraction (text : List Char) : Prop where
  digits : ∀ c ∈ text, c.isDigit = true
  last : text.getLast? ≠ some '0'

theorem mem_fractionForm (h : IsFraction fraction) (hne : fraction ≠ []) :
    '.' :: fraction ∈ fractionForm.matches' := by
  have hsplit : fraction.dropLast ++ [fraction.getLast hne] = fraction :=
    List.dropLast_append_getLast hne
  have hlast : fraction.getLast hne ≠ '0' := fun heq =>
    h.last (heq ▸ List.getLast?_eq_some_getLast hne)
  refine append_mem_mul (a := ['.']) (mem_char '.') ?_
  rw [← hsplit]
  refine append_mem_mul (mem_star_digit fun c hc => ?_) (mem_nonzeroDigit ?_ hlast)
  · exact h.digits c (List.mem_of_mem_dropLast hc)
  · exact h.digits _ (List.getLast_mem hne)

/-- Whole digits in a form, and after them a fraction. -/
theorem pointed_mem {P : RegularExpression Char} (hwhole : whole ∈ P.matches')
    (hfraction : IsFraction fraction) :
    pointed whole fraction ∈ (P * optional fractionForm).matches' := by
  rw [pointed]
  split
  · have hnone := append_mem_mul hwhole (mem_optional (P := fractionForm) (.inl rfl))
    rwa [List.append_nil] at hnone
  · rename_i hne
    exact append_mem_mul hwhole (mem_optional (.inr (mem_fractionForm hfraction hne)))

end ResultForm

/-! ## Layouts of a form -/

namespace NumberFormat

open ResultForm
open Decimal (IsSignificant)
open RegularExpression (char)

variable {format : NumberFormat} {digits : List Char} {exponent : ℤ}

theorem positional_mem (hformat : format.wholeEnding = []) (h : IsSignificant digits)
    (hlast : digits.getLast? ≠ some '0') : format.positional digits exponent
      ∈ ((char '0' + countForm) * optional fractionForm).matches' := by
  rcases lt_or_ge exponent 0 with hneg | hnonneg
  · rw [positional_of_neg h.nonempty hneg]
    refine pointed_mem (mem_wholeForm ⟨by simp, by simp, .inl rfl⟩) ⟨fun c hc => ?_, ?_⟩
    · rcases List.mem_append.1 hc with hc | hc
      · exact isDigit_of_mem_replicate_zero hc
      · exact h.digits c hc
    · rwa [List.getLast?_append_of_ne_nil _ h.nonempty]
  · rw [positional_of_nonneg hformat hnonneg]
    refine pointed_mem (mem_wholeForm (isWhole_take_append h (Nat.succ_pos _)))
      ⟨fun c hc => h.digits c (List.mem_of_mem_drop hc), ?_⟩
    rw [List.getLast?_drop]
    split
    · exact (Option.some_ne_none '0').symm
    · exact hlast

theorem scientific_mem (hformat : format.exponentSign = ['+']) (h : IsSignificant digits)
    (hlast : digits.getLast? ≠ some '0') (hexponent : exponent ≠ 0) :
    format.scientific digits exponent ∈ (nonzeroDigit * optional fractionForm
      * (char 'e' * (oneOf ['+', '-'] * countForm))).matches' := by
  obtain ⟨first, rest, rfl⟩ := List.exists_cons_of_ne_nil h.nonempty
  have hfirst : [first] ∈ nonzeroDigit.matches' :=
    mem_nonzeroDigit (h.digits first (List.mem_cons_self ..)) fun heq => h.head (congrArg some heq)
  have hrest : IsFraction rest := by
    refine ⟨fun c hc => h.digits c (List.mem_cons_of_mem _ hc), fun hzero => hlast ?_⟩
    rw [List.getLast?_cons, hzero]
    rfl
  have hcount : Nat.toDigits 10 exponent.natAbs ∈ countForm.matches' := by
    refine mem_countForm (isWhole_toDigits _) fun hzero => ?_
    exact head?_toDigits_ne (Int.natAbs_pos.2 hexponent) (congrArg List.head? hzero)
  have hsign : (if exponent < 0 then ['-'] else format.exponentSign)
      ∈ (oneOf ['+', '-']).matches' := by
    rw [hformat]
    split
    · exact mem_oneOf (by decide)
    · exact mem_oneOf (by decide)
  rw [scientific_cons]
  exact append_mem_mul (pointed_mem hfirst hrest)
    (append_mem_mul (a := ['e']) (mem_char 'e') (append_mem_mul hsign hcount))

end NumberFormat

/-! ## The place of the first digit -/

namespace Decimal

variable {d : Decimal} {r : ℕ}

/-- A number lies between the power of ten that its first digit counts and the next one. -/
theorem value_mem_Ico (h : 0 < d.digits) :
    d.value ∈ Set.Ico ((10 : ℚ) ^ d.exponentOfFirst) (10 ^ (d.exponentOfFirst + 1)) := by
  have hlow := ten_pow_le_of_pos h
  have hlength : 0 < (Nat.toDigits 10 d.digits).length := List.length_pos_iff.2 Nat.toDigits_ne_nil
  have hhigh : d.digits < 10 ^ (Nat.toDigits 10 d.digits).length :=
    (Nat.length_toDigits_le_iff (by decide) hlength).1 (Nat.le_refl _)
  rw [exponentOfFirst, value]
  generalize (Nat.toDigits 10 d.digits).length = length at hlow hlength hhigh
  have hten : (0 : ℚ) < 10 ^ d.exponent := zpow_pos (by norm_num) _
  constructor
  · have hcast : (10 : ℚ) ^ (length - 1) ≤ d.digits := by exact_mod_cast hlow
    rw [show (length : ℤ) - 1 = (length - 1 : ℕ) by omega, zpow_add₀ (by norm_num), zpow_natCast]
    exact mul_le_mul_of_nonneg_right hcast hten.le
  · have hcast : (d.digits : ℚ) < 10 ^ length := by exact_mod_cast hhigh
    rw [show (length : ℤ) - 1 + d.exponent + 1 = length + d.exponent by omega,
      zpow_add₀ (by norm_num), zpow_natCast]
    exact mul_lt_mul_of_pos_right hcast hten

/-- Numbers with a single digit before the point are not written with an exponent. -/
theorem exponentOfFirst_shortest_ne_zero (hpos : 0 < r) (h : r < Binary.infinity)
    (hr : ¬ (NumberFormat.result.positionalFrom.rank ≤ r ∧
      r < NumberFormat.result.positionalBelow.rank)) : (shortest r).exponentOfFirst ≠ 0 := by
  intro hzero
  obtain ⟨hlow, hhigh⟩ := value_mem_Ico (digits_shortest_pos hpos h.le)
  rw [hzero] at hlow hhigh
  have hone : rank ⟨1, 0⟩ ≤ r := by
    rw [← rank_shortest h.le]
    apply rank_mono
    simpa [value] using hlow
  have hten : r ≤ rank ⟨1, 1⟩ := by
    rw [← rank_shortest h.le]
    apply rank_mono
    simpa [value] using hhigh.le
  have hfrom : NumberFormat.result.positionalFrom.rank ≤ rank ⟨1, 0⟩ := by decide +kernel
  have hbelow : rank ⟨1, 1⟩ < NumberFormat.result.positionalBelow.rank := by decide +kernel
  exact hr ⟨hfrom.trans hone, lt_of_le_of_lt hten hbelow⟩

end Decimal

/-! ## Results of a form -/

namespace NumberFormat

open ResultForm Binary

variable {x : Float}

/-- The decimal that is laid out for a number has digits to lay out. -/
theorem isSignificant_shortest (hfinite : isFinite x = true) (hx : rank x ≠ 0) :
    Decimal.IsSignificant (Decimal.shortest (rank x)).significant :=
  Decimal.isSignificant_significant (Decimal.digits_shortest_pos (Nat.pos_of_ne_zero hx)
    (rank_le_infinity hfinite))

theorem signText_mem (negated : Bool) :
    signText negated ∈ (optional (RegularExpression.char '-')).matches' := by
  cases negated with
  | false => exact mem_optional (.inl rfl)
  | true => exact mem_optional (.inr (mem_char '-'))

/-- **Every result other than zero has the form of its range.** -/
theorem write_mem_form (hfinite : isFinite x = true) (hx : (x == 0) = false) :
    result.write x
      ∈ (if 1e-6 ≤ x.abs ∧ x.abs < 1e21 then positionalForm else scientificForm).matches' := by
  have hzero : rank x ≠ 0 := (beq_zero_eq_false_iff hfinite).1 hx
  have hrange : (1e-6 ≤ x.abs ∧ x.abs < 1e21) ↔
      (result.positionalFrom.rank ≤ rank x ∧ rank x < result.positionalBelow.rank) := by
    have hpositional := isPositional_iff hfinite
    rw [hx] at hpositional
    simpa [IsPositional, hzero] using hpositional.symm
  have hdigits := isSignificant_shortest hfinite hzero
  have hlast := (Decimal.shortest (rank x)).getLast?_significant_ne
  rw [write_eq_signText_append hfinite hzero, magnitude]
  by_cases h : result.positionalFrom.rank ≤ rank x ∧ rank x < result.positionalBelow.rank
  · rw [if_pos h, if_pos (hrange.2 h)]
    exact append_mem_mul (signText_mem _) (positional_mem rfl hdigits hlast)
  · rw [if_neg h, if_neg (mt hrange.1 h)]
    exact append_mem_mul (signText_mem _) (scientific_mem rfl hdigits hlast
      (Decimal.exponentOfFirst_shortest_ne_zero (Nat.pos_of_ne_zero hzero)
        (rank_lt_infinity hfinite) h))

end NumberFormat
end KeypadCalculator
