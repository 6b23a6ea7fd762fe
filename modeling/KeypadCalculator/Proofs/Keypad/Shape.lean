import KeypadCalculator.Proofs.Evaluation.Value
import KeypadCalculator.Proofs.Keypad.Edits
import KeypadCalculator.Proofs.Number.ResultText

/-!
# The shape of the entry line

Whatever is pressed, the line keeps its shape (`inShape_run`): no two operators stand next to each
other, and what stands between operators and parentheses has at most one point, which is not its
first character, and does not begin with two zeros.

A text is in shape exactly when each of its characters fits behind those before it
(`inShape_concat_iff`). So a beginning of a text in shape is in shape, and each edit keeps the shape
because it checks what it adds. A result is in shape because of its form.
-/

namespace KeypadCalculator
namespace Entry

open Numeral (IsPlain IsWhole isNumeralChar)

variable {text more segment : List Char} {c : Char}

/-! ## Segments -/

/-- What stands between two breaks, or before the first or after the last one. -/
structure SegmentInShape (segment : List Char) : Prop where
  points : segment.count '.' ≤ 1
  head : segment.head? ≠ some '.'
  zeros : ¬ ['0', '0'] <+: segment

/-- A text whose segments and operators are in shape. -/
structure InShape (text : List Char) : Prop where
  /-- No two operators are next to each other. -/
  apart : ∀ a b, [a, b] <:+: text → ¬ (Operator.isSymbol a = true ∧ Operator.isSymbol b = true)
  /-- Every segment between operators and parentheses is in shape. -/
  segments : ∀ segment ∈ text.splitOnP isBreak, SegmentInShape segment

/-- Numbers end at these seven characters. -/
theorem isBreak_eq_decide_mem :
    isBreak = fun c => decide (c ∈ ['+', '-', '*', '/', '%', '(', ')']) := by
  funext c
  rw [Bool.eq_iff_iff, decide_eq_true_iff, isBreak, Bool.or_eq_true, Bool.or_eq_true,
    Operator.isSymbol_iff_mem]
  simp only [beq_iff_eq, List.mem_cons, List.not_mem_nil, or_false, or_assoc]

theorem trailingSegment_append (h : ∀ c ∈ more, isBreak c = false) :
    trailingSegment (text ++ more) = trailingSegment text ++ more := by
  have hmore : ∀ c ∈ more.reverse, (!isBreak c) = true := by
    intro c hc
    rw [h c (List.mem_reverse.1 hc)]
    rfl
  rw [trailingSegment, List.reverse_append, List.takeWhile_append_of_pos hmore,
    List.reverse_append, List.reverse_reverse, trailingSegment]

theorem trailingSegment_concat_break (h : isBreak c = true) :
    trailingSegment (text ++ [c]) = [] := by
  rw [trailingSegment, List.reverse_concat, List.takeWhile_cons_of_neg (by simp [h]),
    List.reverse_nil]

/-- The trailing segment is the last of the segments, and what follows without a break goes on with
it. -/
theorem exists_splitOnP_append (text : List Char) :
    ∃ before, ∀ more, (∀ c ∈ more, isBreak c = false) →
    (text ++ more).splitOnP isBreak = before ++ [trailingSegment text ++ more] := by
  induction text using List.reverseRecOn with
  | nil => exact ⟨[], fun more h => List.splitOnP_eq_singleton h⟩
  | append_singleton text c ih =>
    obtain ⟨before, hbefore⟩ := ih
    by_cases hc : isBreak c = true
    · refine ⟨text.splitOnP isBreak, fun more h => ?_⟩
      rw [trailingSegment_concat_break hc, List.append_assoc, List.singleton_append,
        List.splitOnP_append_cons _ _ hc, List.splitOnP_eq_singleton h, List.nil_append]
    · have hc' : ∀ d ∈ [c], isBreak d = false := by simpa using hc
      refine ⟨before, fun more h => ?_⟩
      rw [trailingSegment_append hc', List.append_assoc, List.append_assoc]
      apply hbefore
      intro d hd
      rcases List.mem_append.1 hd with hd | hd
      · exact hc' d hd
      · exact h d hd

/-- Where a text is split depends on its own characters alone. -/
theorem splitOnP_congr {p q : Char → Bool} (h : ∀ c ∈ text, p c = q c) :
    text.splitOnP p = text.splitOnP q := by
  induction text with
  | nil => rw [List.splitOnP_nil, List.splitOnP_nil]
  | cons c rest ih =>
    rw [List.splitOnP_cons_eq_if_modifyHead, List.splitOnP_cons_eq_if_modifyHead,
      ih fun d hd => h d (List.mem_cons_of_mem _ hd), h c (List.mem_cons_self ..)]

/-! ## One character more -/

theorem pair_infix_concat_iff {a b : Char} :
    [a, b] <:+: text ++ [c] ↔ [a, b] <:+: text ∨ (text.getLast? = some a ∧ b = c) := by
  rw [List.infix_concat_iff, or_comm]
  refine or_congr Iff.rfl ?_
  constructor
  · intro h
    obtain ⟨before, hbefore⟩ := h
    rw [List.append_cons before a [b], List.append_singleton_inj] at hbefore
    obtain ⟨rfl, rfl⟩ := hbefore
    exact ⟨List.getLast?_concat .., rfl⟩
  · intro h
    obtain ⟨hlast, rfl⟩ := h
    obtain ⟨before, rfl⟩ := List.getLast?_eq_some_iff.1 hlast
    exact ⟨before, by simp⟩

theorem segmentInShape_nil : SegmentInShape [] where
  points := by simp
  head := by simp
  zeros := by simp

theorem count_point_concat_le_iff : (segment ++ [c]).count '.' ≤ 1 ↔
    segment.count '.' ≤ 1 ∧ (c = '.' → '.' ∉ segment) := by
  have hmem : '.' ∈ segment ↔ 1 ≤ segment.count '.' := List.one_le_count_iff.symm
  rw [List.count_append, List.count_singleton]
  by_cases hc : c = '.'
  · simp only [hc, beq_self_eq_true, if_true, true_implies, hmem]
    omega
  · simp [hc]

theorem head?_concat_ne_point_iff : (segment ++ [c]).head? ≠ some '.' ↔
    segment.head? ≠ some '.' ∧ (c = '.' → segment ≠ []) := by
  cases segment with
  | nil => simp
  | cons d rest => simp

theorem not_zeros_prefix_concat_iff : ¬ ['0', '0'] <+: segment ++ [c] ↔
    ¬ ['0', '0'] <+: segment ∧ (c = '0' → segment ≠ ['0']) := by
  have hlast : ['0', '0'] = segment ++ [c] ↔ c = '0' ∧ segment = ['0'] := by
    rw [show ['0', '0'] = ['0'] ++ ['0'] from rfl, List.append_singleton_inj, and_comm, eq_comm,
      eq_comm (a := ['0'])]
  rw [List.prefix_concat_iff, hlast, not_or, not_and, and_comm]

/-- A character changes the first characters of a segment only when there were few. -/
theorem segmentInShape_concat_iff : SegmentInShape (segment ++ [c]) ↔ SegmentInShape segment ∧
    (c = '.' → '.' ∉ segment ∧ segment ≠ []) ∧ (c = '0' → segment ≠ ['0']) := by
  constructor
  · intro h
    obtain ⟨hpoints, hpoint⟩ := count_point_concat_le_iff.1 h.points
    obtain ⟨hhead, hne⟩ := head?_concat_ne_point_iff.1 h.head
    obtain ⟨hzeros, hzero⟩ := not_zeros_prefix_concat_iff.1 h.zeros
    exact ⟨⟨hpoints, hhead, hzeros⟩, fun hc => ⟨hpoint hc, hne hc⟩, hzero⟩
  · intro h
    obtain ⟨⟨hpoints, hhead, hzeros⟩, hpoint, hzero⟩ := h
    exact ⟨count_point_concat_le_iff.2 ⟨hpoints, fun hc => (hpoint hc).1⟩,
      head?_concat_ne_point_iff.2 ⟨hhead, fun hc => (hpoint hc).2⟩,
      not_zeros_prefix_concat_iff.2 ⟨hzeros, hzero⟩⟩

theorem not_isBreak_zero : isBreak '0' = false := rfl

/-- What a character has to do with the segments is a matter of the trailing one. -/
theorem segments_concat_iff : (∀ segment ∈ (text ++ [c]).splitOnP isBreak, SegmentInShape segment) ↔
    (∀ segment ∈ text.splitOnP isBreak, SegmentInShape segment) ∧
      (c = '.' → '.' ∉ trailingSegment text ∧ trailingSegment text ≠ []) ∧
      (c = '0' → trailingSegment text ≠ ['0']) := by
  obtain ⟨before, hbefore⟩ := exists_splitOnP_append text
  have htext := hbefore [] (by simp)
  rw [List.append_nil, List.append_nil] at htext
  by_cases hc : isBreak c = true
  · -- a new segment begins
    have hpoint : c ≠ '.' := by
      rintro rfl
      cases hc
    have hzero : c ≠ '0' := by
      rintro rfl
      cases hc
    rw [List.splitOnP_append_cons _ _ hc, List.splitOnP_nil]
    simp only [List.mem_append, List.mem_singleton, or_imp, forall_and, forall_eq]
    simp [hpoint, hzero, segmentInShape_nil]
  · rw [hbefore [c] (by simpa using hc), htext]
    simp only [List.mem_append, List.mem_singleton, or_imp, forall_and, forall_eq,
      segmentInShape_concat_iff, and_assoc]

/-- **A text is in shape when each of its characters fits.** -/
theorem inShape_concat_iff : InShape (text ++ [c]) ↔ InShape text ∧ Fits text c := by
  constructor
  · intro h
    obtain ⟨hsegments, hpoint, hzero⟩ := segments_concat_iff.1 h.segments
    refine ⟨⟨fun a b hab => h.apart a b (pair_infix_concat_iff.2 (.inl hab)), hsegments⟩,
      ⟨fun hc d hd => ?_, hpoint, hzero⟩⟩
    have := h.apart d c (pair_infix_concat_iff.2 (.inr ⟨hd, rfl⟩))
    simpa [hc] using this
  · intro h
    obtain ⟨⟨hapart, hsegments⟩, hfits⟩ := h
    refine ⟨fun a b hab => ?_, segments_concat_iff.2 ⟨hsegments, hfits.point, hfits.zero⟩⟩
    rcases pair_infix_concat_iff.1 hab with hab | ⟨hlast, rfl⟩
    · exact hapart a b hab
    · rintro ⟨ha, hb⟩
      rw [hfits.apart hb a hlast] at ha
      cases ha

theorem inShape_nil : InShape [] where
  apart := by simp
  segments := by
    rw [List.splitOnP_nil]
    simpa using segmentInShape_nil

theorem InShape.of_prefix {kept : List Char} (h : InShape text) (hkept : kept <+: text) :
    InShape kept := by
  obtain ⟨more, rfl⟩ := hkept
  induction more using List.reverseRecOn with
  | nil => rwa [List.append_nil] at h
  | append_singleton more c ih =>
    rw [← List.append_assoc] at h
    exact ih (inShape_concat_iff.1 h).1

/-! ## Results -/

theorem isBreak_of_isNumeralChar (h : isNumeralChar c = true) : isBreak c = false := by
  rw [isNumeralChar, Bool.or_eq_true, beq_iff_eq] at h
  rcases h with h | rfl
  · have hopen : c ≠ '(' := by
      rintro rfl
      cases h
    have hclose : c ≠ ')' := by
      rintro rfl
      cases h
    simp [isBreak, not_isSymbol_of_isDigit h, hopen, hclose]
  · rfl

/-- The next character of a plain numeral fits behind those before it. -/
theorem fits_of_isPlain {first rest : List Char} (h : IsPlain (first ++ c :: rest))
    (hsegment : trailingSegment text = first) : Fits text c := by
  have hc := isBreak_of_isNumeralChar (h.characters c (by simp))
  have hsymbol : Operator.isSymbol c = false := by
    rw [isBreak, Bool.or_eq_false_iff, Bool.or_eq_false_iff] at hc
    exact hc.1.1
  subst hsegment
  refine ⟨fun h => absurd h (by simp [hsymbol]), ?_, ?_⟩
  · rintro rfl
    constructor
    · intro hmem
      have hcount := h.points
      have := List.one_le_count_iff.2 hmem
      rw [List.count_append, List.count_cons_self] at hcount
      omega
    · intro hnil
      rw [hnil] at h
      obtain ⟨d, hd, hdigit⟩ := h.head
      cases hd
      cases hdigit
  · rintro rfl hlone
    rw [hlone] at h
    have := h.noIdleZero
    cases this

/-- A plain numeral fits where no number has been begun, character by character. -/
theorem InShape.append_plain (h : InShape text) (hsegment : trailingSegment text = [])
    (hmore : IsPlain more) : InShape (text ++ more) := by
  have hbeginning : ∀ first, first <+: more → InShape (text ++ first) := by
    intro first hfirst
    induction first using List.reverseRecOn with
    | nil => rwa [List.append_nil]
    | append_singleton first c ih =>
      rw [← List.append_assoc, inShape_concat_iff]
      refine ⟨ih ((List.prefix_append first [c]).trans hfirst), ?_⟩
      obtain ⟨rest, rfl⟩ := hfirst
      rw [← List.append_cons] at hmore
      apply fits_of_isPlain hmore
      rw [trailingSegment_append, hsegment, List.nil_append]
      exact fun d hd => isBreak_of_isNumeralChar (hmore.characters d (by simp [hd]))
  exact hbeginning more (List.prefix_refl more)

theorem inShape_signText (negated : Bool) :
    InShape (NumberFormat.signText negated) ∧
      trailingSegment (NumberFormat.signText negated) = [] := by
  cases negated with
  | false => exact ⟨inShape_nil, rfl⟩
  | true =>
    have hfits : Fits [] '-' := ⟨by simp, by simp, by simp⟩
    have hminus : InShape ([] ++ ['-']) := inShape_concat_iff.2 ⟨inShape_nil, hfits⟩
    exact ⟨hminus, rfl⟩

/-- An exponent fits behind any text. -/
theorem InShape.append_exponent (h : InShape text) {sign : Char} {digits : List Char}
    (hsign : sign ∈ ['+', '-']) (hdigits : IsWhole digits) :
    InShape (text ++ 'e' :: sign :: digits) := by
  have hletter : InShape (text ++ ['e']) :=
    inShape_concat_iff.2 ⟨h, fun h => absurd h (by decide), by simp, by simp⟩
  have hsymbol : Operator.isSymbol sign = true ∧ sign ≠ '.' ∧ sign ≠ '0' := by
    simp only [List.mem_cons, List.not_mem_nil, or_false] at hsign
    rcases hsign with rfl | rfl <;> decide
  -- the sign is no second operator because it comes after the `e`
  have hsigned : InShape (text ++ ['e'] ++ [sign]) := by
    refine inShape_concat_iff.2 ⟨hletter, fun _ d hd => ?_, fun h => absurd h hsymbol.2.1,
      fun h => absurd h hsymbol.2.2⟩
    rw [List.getLast?_concat, Option.mem_some_iff] at hd
    subst hd
    rfl
  have hbreak : isBreak sign = true := by
    rw [isBreak, hsymbol.1, Bool.true_or, Bool.true_or]
  rw [List.append_cons, List.append_cons]
  exact hsigned.append_plain (trailingSegment_concat_break hbreak) hdigits.isPlain

theorem inShape_write {x : Float} (hfinite : Binary.isFinite x = true) :
    InShape (NumberFormat.result.write x) := by
  obtain ⟨negated, numeral, ending, htext, hplain, hending⟩ := NumberFormat.exists_write_eq hfinite
  obtain ⟨hsign, hsegment⟩ := inShape_signText negated
  have hbefore := hsign.append_plain hsegment hplain
  rw [htext, ← List.append_assoc]
  cases hending with
  | none => rwa [List.append_nil]
  | exponent hsign hdigits => exact hbefore.append_exponent hsign hdigits

/-! ## Every run -/

theorem Edits.inShape {k : Press} {next : List Char} (hedit : Edits k text next)
    (h : InShape text) : InShape next := by
  have hstart {kept : List Char} (hkept : kept = text ∨ kept = []) : InShape kept := by
    rcases hkept with rfl | rfl
    · exact h
    · exact inShape_nil
  cases hedit with
  | keeps hkept => exact h.of_prefix hkept
  | adds hkept hfits _ =>
    exact inShape_concat_iff.2 ⟨hstart (hkept.imp_right And.left), hfits⟩
  | @addsZero _ kept hkept hsegment =>
    have hzero : Fits kept '0' := ⟨fun h => absurd h (by decide), by simp, by simp [hsegment]⟩
    have htrailing : trailingSegment (kept ++ ['0']) = ['0'] := by
      rw [trailingSegment_append (by simpa using not_isBreak_zero), hsegment, List.nil_append]
    have hpoint : Fits (kept ++ ['0']) '.' :=
      ⟨fun h => absurd h (by decide), by simp [htrailing], by simp⟩
    rw [List.append_cons, inShape_concat_iff, inShape_concat_iff]
    exact ⟨⟨hstart hkept, hzero⟩, hpoint⟩
  | replaces hold hnew =>
    -- what fits as an operator fits as any other
    obtain ⟨hkept, hfits⟩ := inShape_concat_iff.1 h
    refine inShape_concat_iff.2 ⟨hkept, fun _ => hfits.apart hold, ?_, ?_⟩
    · rintro rfl
      cases hnew
    · rintro rfl
      cases hnew

end Entry

namespace Panel

open Entry

theorem inShape_press (p : Panel) (k : Press) (h : InShape p.entry.text) :
    InShape (p.press k).entry.text := by
  rcases p.edits_or_result k with hedit | ⟨v, -, hv, hentry⟩
  · exact hedit.inShape h
  · rw [hentry]
    exact inShape_write (Evaluation.evaluate_eq_ok_iff.1 hv).2

theorem inShape_run (presses : List Press) : InShape (Panel.run {} presses).entry.text := by
  induction presses using List.reverseRecOn with
  | nil => exact inShape_nil
  | append_singleton presses k ih =>
    rw [run_concat]
    exact inShape_press _ k ih

/-- **Whatever is typed, the line keeps its shape.** In no run do two operators come to stand next
to each other; and what stands between operators and parentheses has at most one point, does not begin
with it, and does not begin with two zeros. -/
theorem text_keeps_shape (presses : List Press) : let text := (Panel.run {} presses).entry.text
    (∀ a ∈ ['+', '-', '*', '/', '%'], ∀ b ∈ ['+', '-', '*', '/', '%'], ¬ [a, b] <:+: text) ∧
    ∀ segment ∈ text.splitOnP (fun c => decide (c ∈ ['+', '-', '*', '/', '%', '(', ')'])),
      segment.count '.' ≤ 1 ∧ segment.head? ≠ some '.' ∧ ¬ ['0', '0'] <+: segment := by
  intro text
  have hshape := inShape_run presses
  constructor
  · intro a ha b hb hpair
    exact hshape.apart a b hpair
      ⟨Operator.isSymbol_iff_mem.2 ha, Operator.isSymbol_iff_mem.2 hb⟩
  · rw [← isBreak_eq_decide_mem]
    intro segment hsegment
    obtain ⟨hpoints, hhead, hzeros⟩ := hshape.segments segment hsegment
    exact ⟨hpoints, hhead, hzeros⟩

-- the sign of an exponent, left at the end by backspaces, is an operator like any other
example : (Panel.run {} ("1/10000000".toList.map Press.char ++
    [.equals, .back, .char '.'])).entry.text = "1e-0.".toList := by decide +kernel

end Panel
end KeypadCalculator
