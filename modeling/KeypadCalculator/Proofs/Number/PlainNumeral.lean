import Mathlib
import KeypadCalculator.Number.Numeral

/-!
# Plain numerals

Numbers are typed and shown with a digit first, with at most one point, and without a zero that
stands idle before the other digits of the whole part: such a numeral is plain (`IsPlain`). Whole
digits with the digits of a fraction after them make a plain numeral (`isPlain_pointed`), and it
denotes what these digits say (`toDecimal_pointed`).
-/

namespace KeypadCalculator.Numeral

variable {text whole fraction : List Char} {c : Char}

/-! ## Idle zeros -/

theorem hasIdleZero_of_head?_ne (h : text.head? ≠ some '0') : hasIdleZero text = false := by
  unfold hasIdleZero
  split
  · exact absurd rfl h
  · rfl

theorem hasIdleZero_eq_true_iff : hasIdleZero text = true ↔
    ∃ c rest, text = '0' :: c :: rest ∧ c.isDigit = true := by
  unfold hasIdleZero
  split
  · simp
  · rename_i hother
    simp only [Bool.false_eq_true, false_iff]
    intro h
    obtain ⟨c, rest, rfl, -⟩ := h
    exact hother c rest rfl

/-! ## Plain numerals -/

/-- A numeral that begins with a digit. -/
structure IsPlain (text : List Char) : Prop where
  /-- There are only digits and points. -/
  characters : ∀ c ∈ text, isNumeralChar c = true
  /-- The first character is a digit. -/
  head : ∃ c, text.head? = some c ∧ c.isDigit = true
  /-- There is at most one point. -/
  points : text.count '.' ≤ 1
  /-- No zero is followed by another whole digit at the beginning. -/
  noIdleZero : hasIdleZero text = false

theorem isNumeralChar_of_isDigit (h : c.isDigit = true) : isNumeralChar c = true := by
  rw [isNumeralChar, h, Bool.true_or]

theorem IsPlain.isNumeral (h : IsPlain text) : isNumeral text = true := by
  obtain ⟨c, hc, hdigit⟩ := h.head
  have hany : text.any Char.isDigit = true :=
    List.any_eq_true.2 ⟨c, List.mem_of_head? hc, hdigit⟩
  rw [Numeral.isNumeral, hany, h.noIdleZero, decide_eq_true h.points]
  rfl

/-- A plain numeral is read as what it denotes. -/
theorem IsPlain.read? (h : IsPlain text) : read? text = some (toDecimal text).toFloat :=
  if_pos h.isNumeral

/-! ## Whole digits and a fraction -/

/-- The digits of a whole number. -/
structure IsWhole (text : List Char) : Prop where
  digits : ∀ c ∈ text, c.isDigit = true
  nonempty : text ≠ []
  /-- Only zero itself begins with a zero. -/
  head : text = ['0'] ∨ text.head? ≠ some '0'

/-- Whole digits, and after a point those of the fraction if there are any. -/
def pointed (whole fraction : List Char) : List Char :=
  if fraction = [] then whole else whole ++ '.' :: fraction

theorem ne_point_of_isDigit (h : c.isDigit = true) : c ≠ '.' := by
  rintro rfl
  exact absurd h (by decide)

theorem count_point_of_digits (h : ∀ c ∈ text, c.isDigit = true) : text.count '.' = 0 :=
  List.count_eq_zero.2 fun hmem => ne_point_of_isDigit (h '.' hmem) rfl

/-- A whole number stays without an idle zero when a point follows it. -/
theorem IsWhole.hasIdleZero_append (h : IsWhole whole) {rest : List Char}
    (hrest : ∀ c ∈ rest.head?, c.isDigit = false) : hasIdleZero (whole ++ rest) = false := by
  rcases h.head with rfl | hhead
  · rw [← Bool.not_eq_true, hasIdleZero_eq_true_iff]
    intro hidle
    obtain ⟨c, tail, heq, hc⟩ := hidle
    obtain rfl : rest = c :: tail := (List.cons.inj heq).2
    have := hrest c rfl
    rw [hc] at this
    cases this
  · apply hasIdleZero_of_head?_ne
    rw [List.head?_append_of_ne_nil _ h.nonempty]
    exact hhead

theorem isPlain_pointed (hw : IsWhole whole) (hf : ∀ c ∈ fraction, c.isDigit = true) :
    IsPlain (pointed whole fraction) := by
  obtain ⟨first, rest, rfl⟩ := List.exists_cons_of_ne_nil hw.nonempty
  have hfirst : first.isDigit = true := hw.digits first (List.mem_cons_self ..)
  unfold pointed
  by_cases hnil : fraction = []
  · rw [if_pos hnil]
    have hidle : hasIdleZero (first :: rest ++ []) = false := hw.hasIdleZero_append (by simp)
    rw [List.append_nil] at hidle
    exact ⟨fun c hc => isNumeralChar_of_isDigit (hw.digits c hc), ⟨first, rfl, hfirst⟩,
      by rw [count_point_of_digits hw.digits]; omega, hidle⟩
  · rw [if_neg hnil]
    refine ⟨?_, ⟨first, rfl, hfirst⟩, ?_, hw.hasIdleZero_append ?_⟩
    · intro c hc
      simp only [List.mem_append, List.mem_cons] at hc
      rcases hc with (hc | rfl | hc)
      · exact isNumeralChar_of_isDigit (hw.digits c (List.mem_cons.2 hc))
      · rfl
      · exact isNumeralChar_of_isDigit (hf c hc)
    · rw [List.count_append, List.count_cons_self, count_point_of_digits hw.digits,
        count_point_of_digits hf]
    · intro c hc
      obtain rfl : c = '.' := by simpa using hc.symm
      decide

theorem IsWhole.isPlain (h : IsWhole text) : IsPlain text := by
  have hpointed : IsPlain (pointed text []) := isPlain_pointed h (by simp)
  rwa [pointed, if_pos rfl] at hpointed

/-! ## What a plain numeral denotes -/

theorem filter_isDigit_of_digits (h : ∀ c ∈ text, c.isDigit = true) :
    text.filter Char.isDigit = text :=
  List.filter_eq_self.2 h

theorem dropWhile_ne_point (h : ∀ c ∈ whole, c.isDigit = true) (rest : List Char) :
    (whole ++ rest).dropWhile (· != '.') = rest.dropWhile (· != '.') := by
  apply List.dropWhile_append_of_pos
  intro c hc
  exact bne_iff_ne.2 (ne_point_of_isDigit (h c hc))

/-- All digits make the number, and those of the fraction say where its point is. -/
theorem toDecimal_pointed (hw : ∀ c ∈ whole, c.isDigit = true)
    (hf : ∀ c ∈ fraction, c.isDigit = true) : toDecimal (pointed whole fraction)
      = ⟨Nat.ofDigitChars 10 (whole ++ fraction) 0, -(fraction.length : ℤ)⟩ := by
  unfold pointed toDecimal
  by_cases hnil : fraction = []
  · subst hnil
    have hdrop := dropWhile_ne_point hw []
    rw [List.append_nil] at hdrop
    rw [if_pos rfl, hdrop, filter_isDigit_of_digits hw, List.append_nil]
    rfl
  · rw [if_neg hnil, dropWhile_ne_point hw, List.filter_append, List.filter_cons_of_neg (by decide),
      filter_isDigit_of_digits hw, filter_isDigit_of_digits hf,
      List.dropWhile_cons_of_neg (by decide), List.drop_one, List.tail_cons]

end KeypadCalculator.Numeral
