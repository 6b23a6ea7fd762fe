import KeypadCalculator.Calculation
import KeypadCalculator.Proofs.Number.Layout
import KeypadCalculator.Proofs.Number.SignedZero

/-!
# The text of a result

A result is shown in one of two forms. Positional results are a plain numeral with a minus before it
if they are negative, and that numeral reads back (`exists_write_eq_of_isPositional`). The others
have an exponent, and only they have an `e` in their text (`e_mem_write_iff`).
-/

namespace KeypadCalculator

open Binary (rank negative isFinite isNaN ofRank infinity unsignZero)
open Numeral (IsPlain IsWhole toDecimal)

theorem signed_ofRank (negated : Bool) {r : ℕ} (h : r ≤ infinity) :
    signed negated (ofRank false r) = ofRank negated r := by
  cases negated with
  | false => rfl
  | true => exact Binary.neg_ofRank h

namespace NumberFormat

variable {format : NumberFormat} {x : Float}

/-- Zero, and the numbers that a format writes without an exponent. -/
def IsPositional (format : NumberFormat) (x : Float) : Prop :=
  rank x = 0 ∨ (format.positionalFrom.rank ≤ rank x ∧ rank x < format.positionalBelow.rank)

instance (format : NumberFormat) (x : Float) : Decidable (format.IsPositional x) :=
  inferInstanceAs (Decidable (_ ∨ _))

/-- The minus of a negative number. -/
def signText (negated : Bool) : List Char :=
  if negated then ['-'] else []

theorem signText_append (negated : Bool) (text : List Char) :
    signText negated ++ text = if negated then '-' :: text else text := by
  cases negated with
  | false => rfl
  | true => rfl

theorem write_eq_signText_append (hfinite : isFinite x = true) (hx : rank x ≠ 0) :
    format.write x = signText (negative x) ++ format.magnitude (rank x) := by
  have hlt : rank x < infinity := Binary.rank_lt_infinity hfinite
  have hnan : ¬ isNaN x = true := by
    rw [isNaN, decide_eq_true_iff]
    omega
  rw [write, if_neg hnan, if_neg hx, if_pos hfinite, signText_append]

/-! ## Positional results -/

/-- The positional text of a magnitude denotes its shortest decimal, and so reads back. -/
theorem exists_positional_shortest {r : ℕ} (hpos : 0 < r) (h : r ≤ infinity) :
    ∃ numeral, result.positional (Decimal.shortest r).significant
        (Decimal.shortest r).exponentOfFirst = numeral ∧
      IsPlain numeral ∧ (toDecimal numeral).rank = r := by
  have hdigits := Decimal.isSignificant_significant (Decimal.digits_shortest_pos hpos h)
  obtain ⟨whole, fraction, htext, hwhole, hfraction, hvalue⟩ :=
    isLayout_positional (rfl : result.wholeEnding = []) hdigits
      (Decimal.shortest r).exponentOfFirst
  refine ⟨_, htext, Numeral.isPlain_pointed hwhole hfraction, ?_⟩
  rw [Numeral.toDecimal_pointed hwhole.digits hfraction,
    Decimal.rank_congr (hvalue.trans (Decimal.value_significant _)), Decimal.rank_shortest h]

/-- **A positional result reads back**, up to the sign of a zero. -/
theorem exists_write_eq_of_isPositional (hfinite : isFinite x = true)
    (hx : result.IsPositional x) : ∃ negated numeral,
      result.write x = signText negated ++ numeral ∧ IsPlain numeral ∧
        signed negated (toDecimal numeral).toFloat = unsignZero x := by
  by_cases hzero : rank x = 0
  · refine ⟨false, ['0'], write_of_rank_eq_zero rfl hzero, ?_, ?_⟩
    · exact IsWhole.isPlain ⟨by simp, by simp, .inl rfl⟩
    · rw [Binary.unsignZero_of_rank_eq_zero hzero, Decimal.toFloat,
        Decimal.rank_of_digits_eq_zero rfl]
      rfl
  · have hle : rank x ≤ infinity := Binary.rank_le_infinity hfinite
    have hrange := hx.resolve_left hzero
    obtain ⟨numeral, htext, hplain, hrank⟩ :=
      exists_positional_shortest (Nat.pos_of_ne_zero hzero) hle
    refine ⟨negative x, numeral, ?_, hplain, ?_⟩
    · rw [write_eq_signText_append hfinite hzero, magnitude, if_pos hrange, htext]
    · rw [Binary.unsignZero_of_rank_ne_zero hzero, Decimal.toFloat, hrank, signed_ofRank _ hle,
        Binary.ofRank_negative_rank hle]

/-! ## Results with an exponent -/

/-- A result that is not positional has an exponent with a sign. -/
theorem exists_write_eq_of_not_isPositional (hfinite : isFinite x = true)
    (hx : ¬ result.IsPositional x) : ∃ negated significand sign exponent,
      result.write x = signText negated ++ (significand ++ 'e' :: sign :: exponent) ∧
        IsPlain significand ∧ sign ∈ ['+', '-'] ∧ IsWhole exponent := by
  have hle : rank x ≤ infinity := Binary.rank_le_infinity hfinite
  have hzero : rank x ≠ 0 := fun h => hx (.inl h)
  have hrange : ¬ (result.positionalFrom.rank ≤ rank x ∧ rank x < result.positionalBelow.rank) :=
    fun h => hx (.inr h)
  have hdigits := Decimal.isSignificant_significant
    (Decimal.digits_shortest_pos (Nat.pos_of_ne_zero hzero) hle)
  obtain ⟨significand, hplain, htext⟩ := exists_scientific_eq result hdigits
    (Decimal.shortest (rank x)).exponentOfFirst
  have hwrite : result.write x = signText (negative x) ++ result.magnitude (rank x) :=
    write_eq_signText_append hfinite hzero
  rw [magnitude, if_neg hrange, htext] at hwrite
  by_cases hneg : (Decimal.shortest (rank x)).exponentOfFirst < 0
  · rw [if_pos hneg, List.singleton_append] at hwrite
    exact ⟨_, significand, '-', _, hwrite, hplain, by simp, isWhole_toDigits _⟩
  · have hsign : result.exponentSign = ['+'] := rfl
    rw [if_neg hneg, hsign, List.singleton_append] at hwrite
    exact ⟨_, significand, '+', _, hwrite, hplain, by simp, isWhole_toDigits _⟩

/-! ## All results -/

/-- What follows the numeral of a result: nothing, or an exponent with its sign. -/
inductive IsEnding : List Char → Prop
  | none : IsEnding []
  | exponent {sign : Char} {digits : List Char} (hsign : sign ∈ ['+', '-'])
      (hdigits : IsWhole digits) : IsEnding ('e' :: sign :: digits)

/-- A result is a plain numeral with a minus before it or not, and with an exponent behind it or
not. -/
theorem exists_write_eq (hfinite : isFinite x = true) : ∃ negated numeral ending,
    result.write x = signText negated ++ (numeral ++ ending) ∧ IsPlain numeral ∧
      IsEnding ending := by
  by_cases hx : result.IsPositional x
  · obtain ⟨negated, numeral, htext, hplain, -⟩ := exists_write_eq_of_isPositional hfinite hx
    exact ⟨negated, numeral, [], by rw [htext, List.append_nil], hplain, .none⟩
  · obtain ⟨negated, numeral, sign, digits, htext, hplain, hsign, hdigits⟩ :=
      exists_write_eq_of_not_isPositional hfinite hx
    exact ⟨negated, numeral, 'e' :: sign :: digits, htext, hplain, .exponent hsign hdigits⟩

theorem write_ne_nil (hfinite : isFinite x = true) : result.write x ≠ [] := by
  obtain ⟨negated, numeral, ending, htext, hplain, -⟩ := exists_write_eq hfinite
  obtain ⟨c, hc, -⟩ := hplain.head
  have hmem : c ∈ result.write x := by
    rw [htext, List.mem_append, List.mem_append]
    exact .inr (.inl (List.mem_of_mem_head? hc))
  exact List.ne_nil_of_mem hmem

/-! ## Which results have an exponent -/

theorem e_mem_write_iff (hfinite : isFinite x = true) :
    'e' ∈ result.write x ↔ ¬ result.IsPositional x := by
  constructor
  · intro hmem hx
    obtain ⟨negated, numeral, htext, hplain, -⟩ := exists_write_eq_of_isPositional hfinite hx
    rw [htext, List.mem_append] at hmem
    rcases hmem with hmem | hmem
    · cases negated with
      | false => cases hmem
      | true => simp [signText] at hmem
    · exact absurd (hplain.characters 'e' hmem) (by decide)
  · intro hx
    obtain ⟨negated, significand, sign, exponent, htext, -⟩ :=
      exists_write_eq_of_not_isPositional hfinite hx
    rw [htext]
    simp

end NumberFormat
end KeypadCalculator
