import KeypadCalculator.Proofs.Number.ResultForm

/-!
# The value of a result

A text in one of the forms of a result denotes a decimal with a sign (`SignedDecimal.ofText`). The
decimal that the text of a number denotes is the shortest one with the sign of the number
(`ofText_write`), so it rounds to the number and no decimal of fewer digits does.
-/

namespace KeypadCalculator

open Binary (rank negative isFinite infinity signFactor RoundsTo)
open Decimal (shortest)
open NumberFormat (signText)
open Numeral (IsPlain toDecimal pointed)

/-- A decimal or its negative. -/
structure SignedDecimal where
  negated : Bool
  magnitude : Decimal

namespace SignedDecimal

variable {text numeral : List Char} {x : Float}

/-- The number that it is. -/
def value (d : SignedDecimal) : ℚ :=
  signFactor d.negated * d.magnitude.value

/-- Its digits without the zeros at their ends. -/
def significant (d : SignedDecimal) : List Char :=
  d.magnitude.significant

/-! ## Reading the forms of a result -/

/-- The power of ten that stands at the end of a text: an `e`, a sign and digits, or nothing. -/
def exponentOf (text : List Char) : ℤ :=
  match text.dropWhile (· != 'e') with
  | 'e' :: '-' :: digits => -(Nat.ofDigitChars 10 digits 0 : ℤ)
  | 'e' :: '+' :: digits => Nat.ofDigitChars 10 digits 0
  | _ => 0

/-- The decimal that a text without a sign denotes. -/
def ofUnsigned (text : List Char) : Decimal :=
  let numeral := toDecimal (text.takeWhile (· != 'e'))
  ⟨numeral.digits, numeral.exponent + exponentOf text⟩

/-- What a text denotes that may begin with a minus. -/
def ofText : List Char → SignedDecimal
  | '-' :: rest => ⟨true, ofUnsigned rest⟩
  | text => ⟨false, ofUnsigned text⟩

example : ofText "-1.5e+22".toList = ⟨true, ⟨15, 21⟩⟩ := by rfl

theorem ofText_signText_append (negated : Bool) (h : text.head? ≠ some '-') :
    ofText (signText negated ++ text) = ⟨negated, ofUnsigned text⟩ := by
  cases negated with
  | true => rfl
  | false =>
    show ofText text = _
    unfold ofText
    split
    · exact absurd rfl h
    · rfl

theorem ne_exponent_of_plain (h : IsPlain text) : ∀ c ∈ text, (c != 'e') = true := by
  intro c hc
  refine bne_iff_ne.2 fun heq => ?_
  have := h.characters c hc
  rw [heq] at this
  exact absurd this (by decide)

/-- Without an exponent the numeral stands alone. -/
theorem ofUnsigned_of_plain (h : IsPlain text) : ofUnsigned text = toDecimal text := by
  have hno := ne_exponent_of_plain h
  have htake : text.takeWhile (· != 'e') = text := List.takeWhile_eq_self_iff.2 hno
  have hdrop : text.dropWhile (· != 'e') = [] := List.dropWhile_eq_nil_iff.2 hno
  rw [ofUnsigned, exponentOf, htake, hdrop]
  exact congrArg (Decimal.mk _) (Int.add_zero _)

/-- An exponent moves the point of the numeral before it. -/
theorem ofUnsigned_append (h : IsPlain numeral) (exponent : ℤ) :
    ofUnsigned (numeral ++ 'e' :: ((if exponent < 0 then ['-'] else ['+'])
      ++ Nat.toDigits 10 exponent.natAbs))
      = ⟨(toDecimal numeral).digits, (toDecimal numeral).exponent + exponent⟩ := by
  have hno := ne_exponent_of_plain h
  have hdigits : Nat.ofDigitChars 10 (Nat.toDigits 10 exponent.natAbs) 0 = exponent.natAbs :=
    Nat.ofDigitChars_toDigits (by decide) (by decide)
  rw [ofUnsigned, exponentOf, List.takeWhile_append_of_pos hno, List.dropWhile_append_of_pos hno,
    List.takeWhile_cons_of_neg (by decide), List.dropWhile_cons_of_neg (by decide), List.append_nil]
  congr 2
  by_cases hneg : exponent < 0
  · rw [if_pos hneg]
    show -((Nat.ofDigitChars 10 (Nat.toDigits 10 exponent.natAbs) 0 : ℕ) : ℤ) = exponent
    rw [hdigits]
    omega
  · rw [if_neg hneg]
    show ((Nat.ofDigitChars 10 (Nat.toDigits 10 exponent.natAbs) 0 : ℕ) : ℤ) = exponent
    rw [hdigits]
    omega

end SignedDecimal

/-! ## What a result denotes -/

namespace NumberFormat

open SignedDecimal

variable {x y : Float}

theorem head?_ne_minus_of_plain {text rest : List Char} (h : IsPlain text) :
    (text ++ rest).head? ≠ some '-' := by
  obtain ⟨c, hc, hdigit⟩ := h.head
  rw [List.head?_append, hc]
  intro heq
  rw [Option.some.inj heq] at hdigit
  exact absurd hdigit (by decide)

/-- The text of a magnitude begins with a digit and denotes the shortest decimal. -/
theorem value_ofUnsigned_magnitude (hfinite : isFinite x = true) (hx : rank x ≠ 0) :
    (result.magnitude (rank x)).head? ≠ some '-' ∧
      (ofUnsigned (result.magnitude (rank x))).value = (shortest (rank x)).value := by
  have hdigits := isSignificant_shortest hfinite hx
  have hvalue := (shortest (rank x)).value_significant
  rw [magnitude]
  generalize (shortest (rank x)).exponentOfFirst = exponent at hvalue ⊢
  rw [← hvalue]
  split
  · obtain ⟨whole, fraction, htext, hwhole, hfraction, hlayout⟩ :=
      isLayout_positional (rfl : result.wholeEnding = []) hdigits exponent
    have hplain := Numeral.isPlain_pointed hwhole hfraction
    rw [htext, ofUnsigned_of_plain hplain, Numeral.toDecimal_pointed hwhole.digits hfraction]
    exact ⟨List.append_nil (pointed whole fraction) ▸ head?_ne_minus_of_plain hplain, hlayout⟩
  · obtain ⟨first, rest, hcons⟩ := List.exists_cons_of_ne_nil hdigits.nonempty
    rw [hcons] at hdigits ⊢
    have hrest : ∀ c ∈ rest, c.isDigit = true := fun c hc =>
      hdigits.digits c (List.mem_cons_of_mem _ hc)
    have hplain := Numeral.isPlain_pointed hdigits.isWhole_head hrest
    rw [scientific_cons, show result.exponentSign = ['+'] from rfl, ofUnsigned_append hplain,
      Numeral.toDecimal_pointed hdigits.isWhole_head.digits hrest]
    refine ⟨head?_ne_minus_of_plain hplain, congrArg (fun places => Decimal.value ⟨_, places⟩) ?_⟩
    rw [List.length_cons]
    push_cast
    ring

/-- **The text of a number denotes its shortest decimal with its sign.** -/
theorem ofText_write (hfinite : isFinite x = true) (hx : rank x ≠ 0) :
    (ofText (result.write x)).negated = negative x ∧
      (ofText (result.write x)).magnitude.value = (shortest (rank x)).value := by
  obtain ⟨hhead, hvalue⟩ := value_ofUnsigned_magnitude hfinite hx
  rw [write_eq_signText_append hfinite hx, ofText_signText_append _ hhead]
  exact ⟨rfl, hvalue⟩

theorem head?_write_iff (hfinite : isFinite x = true) (hx : rank x ≠ 0) :
    (result.write x).head? = some '-' ↔ x < 0 := by
  obtain ⟨hhead, -⟩ := value_ofUnsigned_magnitude hfinite hx
  rw [Binary.lt_zero_iff_negative hfinite hx, write_eq_signText_append hfinite hx, signText_append]
  cases negative x with
  | false =>
    rw [if_neg Bool.false_ne_true]
    exact iff_of_false hhead Bool.false_ne_true
  | true =>
    rw [if_pos rfl]
    exact iff_of_true rfl rfl

/-- The decimals that are rounded to a number have its sign, and its rank apart from that. -/
theorem roundsTo_value_iff (hfinite : isFinite x = true) (hx : rank x ≠ 0) (d : SignedDecimal) :
    RoundsTo d.value x ↔ d.negated = negative x ∧ d.magnitude.rank = rank x :=
  Decimal.roundsTo_iff_rank_eq hfinite hx

theorem rank_ofText_write (hfinite : isFinite x = true) :
    (ofText (result.write x)).magnitude.rank = rank x := by
  by_cases hx : rank x = 0
  · rw [write_of_rank_eq_zero rfl hx, hx]
    exact Decimal.rank_of_digits_eq_zero rfl
  · rw [Decimal.rank_congr (ofText_write hfinite hx).2]
    exact Decimal.rank_shortest (Binary.rank_le_infinity hfinite)

/-- The text of a result tells all numbers apart but the two zeros. -/
theorem write_eq_write_iff (hx : isFinite x = true) (hy : isFinite y = true) :
    result.write x = result.write y ↔ (x == y) = true := by
  rw [Binary.beq_iff_unsignZero_eq hx hy]
  constructor
  · intro h
    have hrank : rank x = rank y := by
      rw [← rank_ofText_write hx, h, rank_ofText_write hy]
    by_cases hzero : rank x = 0
    · rw [Binary.unsignZero_of_rank_eq_zero hzero,
        Binary.unsignZero_of_rank_eq_zero (hrank ▸ hzero)]
    · have hsign : negative x = negative y := by
        rw [← (ofText_write hx hzero).1, h, (ofText_write hy (hrank ▸ hzero)).1]
      rw [(Binary.eq_iff_negative_rank (Binary.rank_le_infinity hx)
        (Binary.rank_le_infinity hy)).2 ⟨hsign, hrank⟩]
  · intro h
    rw [← write_unsignZero rfl x, h, write_unsignZero rfl]

/-! ## The rendering of numbers -/

/-- **Results are the shortest decimals that read back.** Zero is `0`. Any other number has the form
of its range and a minus exactly when it is negative; what the text denotes is rounded to the number,
and nothing with fewer significant digits is. So the text tells numbers apart. -/
theorem result_is_shortest (hfinite : isFinite x = true) :
    ((x == 0) = true → result.write x = ['0']) ∧
    ((x == 0) = false →
      result.write x ∈ (if 1e-6 ≤ x.abs ∧ x.abs < 1e21 then ResultForm.positionalForm
        else ResultForm.scientificForm).matches' ∧
      ((result.write x).head? = some '-' ↔ x < 0) ∧
      RoundsTo (ofText (result.write x)).value x ∧
      ∀ d : SignedDecimal, d.significant.length < (ofText (result.write x)).significant.length →
        ¬ RoundsTo d.value x) ∧
    ∀ y, isFinite y = true → (result.write x = result.write y ↔ (x == y) = true) := by
  refine ⟨fun hzero => ?_, fun hne => ?_, fun y hy => write_eq_write_iff hfinite hy⟩
  · exact write_of_rank_eq_zero rfl ((Binary.beq_zero_iff hfinite).1 hzero)
  · have hx : rank x ≠ 0 := (Binary.beq_zero_eq_false_iff hfinite).1 hne
    obtain ⟨hsign, hvalue⟩ := ofText_write hfinite hx
    refine ⟨write_mem_form hfinite hne, head?_write_iff hfinite hx, ?_, fun d hfewer hrounds => ?_⟩
    · exact (roundsTo_value_iff hfinite hx _).2 ⟨hsign, rank_ofText_write hfinite⟩
    · have hrank := ((roundsTo_value_iff hfinite hx d).1 hrounds).2
      have hfewest := Decimal.length_significant_shortest_le (Nat.pos_of_ne_zero hx)
        (Binary.rank_le_infinity hfinite) hrank
      rw [SignedDecimal.significant, SignedDecimal.significant,
        Decimal.significant_congr hvalue] at hfewer
      exact absurd hfewest (Nat.not_le_of_lt hfewer)

/-- At a power of two, the smallest number with a significand of 53 bits. -/
theorem result_is_shortest_at_power_of_two :
    isFinite (-2.2250738585072014e-308) = true ∧
      result.write (-2.2250738585072014e-308) = "-2.2250738585072014e-308".toList ∧
      "-2.2250738585072014e-308".toList ∈ ResultForm.scientificForm.matches' ∧
      RoundsTo (ofText "-2.2250738585072014e-308".toList).value (-2.2250738585072014e-308) ∧
      ∀ d : SignedDecimal, d.significant.length < 17 →
        ¬ RoundsTo d.value (-2.2250738585072014e-308) := by
  have hfinite : isFinite (-2.2250738585072014e-308) = true := by decide +kernel
  have hwrite : result.write (-2.2250738585072014e-308) = "-2.2250738585072014e-308".toList := by
    decide +kernel
  have hnumber := (result_is_shortest hfinite).2.1 (by decide +kernel)
  rw [hwrite, if_neg (by decide +kernel)] at hnumber
  exact ⟨hfinite, hwrite, hnumber.1, hnumber.2.2⟩

end NumberFormat
end KeypadCalculator
