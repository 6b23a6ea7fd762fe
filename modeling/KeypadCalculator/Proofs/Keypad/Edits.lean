import Mathlib
import KeypadCalculator.Keypad.Panel

/-!
# What a press can do to the entry line

A press shows a result, or it edits the line: it keeps a beginning of the text and puts at most one
character, or a zero and a point, behind it. `Edits` lists the ways, each with what the line has
checked before, and `edits_or_result` says that there are no others. What is kept or lost by a run
of presses is proved from these, without a look at how the line is typed; and what a line has come
to be in a run it owes to some press of it (`exists_since`).
-/

namespace KeypadCalculator

variable {text kept : List Char} {c : Char}

namespace Entry

/-! ## Typing one character -/

/-- What the line checks before it takes a character at the end of a text. -/
structure Fits (text : List Char) (c : Char) : Prop where
  /-- No operator follows an operator. -/
  apart : Operator.isSymbol c = true → ∀ d ∈ text.getLast?, Operator.isSymbol d = false
  /-- A point follows the digits of a number that has none yet. -/
  point : c = '.' → '.' ∉ trailingSegment text ∧ trailingSegment text ≠ []
  /-- A zero does not follow a lone zero. -/
  zero : c = '0' → trailingSegment text ≠ ['0']

/-- `Edits k text next` says that the press `k` makes `next` of the text and shows no result. -/
inductive Edits : Press → List Char → List Char → Prop
  /-- Nothing is added; something may be taken away. -/
  | keeps {k : Press} {text kept : List Char} (h : kept <+: text) : Edits k text kept
  /-- A character is put at the end of the text, or starts a new one. -/
  | adds {text kept : List Char} {c : Char}
      (hkept : kept = text ∨ kept = [] ∧ Operator.isSymbol c = false) (hfits : Fits kept c)
      (hfirst : kept = [] → Operator.isSymbol c = true → c = '-') :
      Edits (.char c) text (kept ++ [c])
  /-- A point begins a number, which gets a zero before it. -/
  | addsZero {text kept : List Char} (hkept : kept = text ∨ kept = [])
      (hsegment : trailingSegment kept = []) : Edits (.char '.') text (kept ++ ['0', '.'])
  /-- An operator takes the place of an operator. -/
  | replaces {kept : List Char} {old new : Char} (hold : Operator.isSymbol old = true)
      (hnew : Operator.isSymbol new = true) : Edits (.char new) (kept ++ [old]) (kept ++ [new])

/-- What an edit adds is the character typed, or the zero before a point. -/
theorem Edits.prefix_concat {k : Press} {next first : List Char} (hedit : Edits k text next)
    (h : first ++ [c] <+: next) : first ++ [c] <+: text ∨ k = .char c ∨ c = '0' := by
  -- a character behind the text is the last one there, or one of those before it
  have hlast {kept : List Char} {d : Char} (hkept : kept = text ∨ kept = [])
      (h : first ++ [c] <+: kept ++ [d]) : first ++ [c] <+: text ∨ c = d := by
    rcases List.prefix_concat_iff.1 h with heq | h
    · exact .inr (List.append_singleton_inj.1 heq).2
    · rcases hkept with rfl | rfl
      · exact .inl h
      · exact absurd (List.prefix_nil.1 h) (by simp)
  cases hedit with
  | keeps hkept => exact .inl (h.trans hkept)
  | adds hkept hfits hfirst =>
    rcases hlast (hkept.imp_right And.left) h with h | rfl
    · exact .inl h
    · exact .inr (.inl rfl)
  | @addsZero _ kept hkept hsegment =>
    rw [List.append_cons kept] at h
    rcases List.prefix_concat_iff.1 h with heq | h
    · rw [(List.append_singleton_inj.1 heq).2]
      exact .inr (.inl rfl)
    · rcases hlast hkept h with h | rfl
      · exact .inl h
      · exact .inr (.inr rfl)
  | @replaces kept old new hold hnew =>
    rcases List.prefix_concat_iff.1 h with heq | h
    · rw [(List.append_singleton_inj.1 heq).2]
      exact .inr (.inl rfl)
    · exact .inl (h.trans (List.prefix_append kept [old]))

/-! ## How typing edits -/

theorem endsWithOperator_iff {e : Entry} : e.endsWithOperator = true ↔
    ∃ kept op, e.text = kept ++ [op] ∧ Operator.isSymbol op = true := by
  unfold endsWithOperator
  cases htext : e.text using List.reverseRecOn with
  | nil => simp
  | append_singleton kept op =>
    rw [List.getLast?_concat, Option.any_some]
    constructor
    · exact fun h => ⟨kept, op, rfl, h⟩
    · intro h
      obtain ⟨kept', op', heq, hop⟩ := h
      obtain ⟨-, rfl⟩ := List.append_singleton_inj.1 heq
      exact hop

theorem not_isSymbol_of_isDigit (h : c.isDigit = true) : Operator.isSymbol c = false := by
  rw [← Bool.not_eq_true]
  intro hsymbol
  obtain ⟨op, hop⟩ := Option.isSome_iff_exists.1 hsymbol
  rw [Operator.ofChar?_eq_some_iff] at hop
  subst hop
  cases op <;> exact absurd h (by decide)

/-- What a character is put on is the line or an empty one; an operator is put on the line. -/
theorem base_cases (e : Entry) (c : Char) :
    e.base c = e ∨ (e.base c = {} ∧ Operator.isSymbol c = false) := by
  unfold base
  by_cases h : (e.isResult && (c.isDigit || c == '.')) = true
  · rw [if_pos h]
    right
    simp only [Bool.and_eq_true, Bool.or_eq_true, beq_iff_eq] at h
    rcases h.2 with hdigit | rfl
    · exact ⟨rfl, not_isSymbol_of_isDigit hdigit⟩
    · exact ⟨rfl, rfl⟩
  · rw [if_neg h]
    exact .inl rfl

theorem rejection?_eq_none_iff : rejection? text c = none ↔
    (c = '.' → '.' ∉ trailingSegment text) ∧ (c = '0' → trailingSegment text ≠ ['0']) := by
  unfold rejection?
  split
  · rename_i h
    simp [h]
  · rename_i hpoint
    split
    · rename_i h
      simp [h]
    · rename_i hzero
      simp only [true_iff]
      exact ⟨fun hc hmem => hpoint ⟨hc, hmem⟩, fun hc hsegment => hzero ⟨hc, hsegment⟩⟩

/-- A character is put behind the text, or is refused, or starts a new text. -/
theorem edits_append (e : Entry) (c : Char) (hoperator : Operator.isSymbol c = true →
      e.endsWithOperator = false ∧ (e.text = [] → c = '-')) :
    Edits (.char c) e.text (e.append c).1.text := by
  unfold append
  dsimp only
  have hbase := base_cases e c
  generalize e.base c = base at hbase
  have hkept : base.text = e.text ∨ (base.text = [] ∧ Operator.isSymbol c = false) := by
    rcases hbase with rfl | ⟨rfl, hc⟩
    · exact .inl rfl
    · exact .inr ⟨rfl, hc⟩
  have hsame : Operator.isSymbol c = true → base = e := by
    intro hc
    rcases hbase with h | ⟨-, hc'⟩
    · exact h
    · rw [hc] at hc'
      cases hc'
  cases hrejection : rejection? base.text c with
  | some reason =>
    rcases hkept with h | ⟨h, -⟩
    · exact .keeps (h ▸ List.prefix_refl _)
    · exact .keeps (h ▸ List.nil_prefix)
  | none =>
    obtain ⟨hpoint, hzero⟩ := rejection?_eq_none_iff.1 hrejection
    dsimp only
    unfold extended
    by_cases hstart : c = '.' ∧ trailingSegment base.text = []
    · rw [if_pos hstart]
      obtain ⟨rfl, hsegment⟩ := hstart
      exact .addsZero (hkept.imp_right And.left) hsegment
    · rw [if_neg hstart]
      refine .adds hkept ⟨?_, ?_, hzero⟩ ?_
      · intro hc d hd
        have hend := (hoperator hc).1
        rw [← hsame hc, endsWithOperator, Option.mem_def.1 hd] at hend
        exact hend
      · exact fun hc => ⟨hpoint hc, fun hsegment => hstart ⟨hc, hsegment⟩⟩
      · intro hnil hc
        exact (hoperator hc).2 (hsame hc ▸ hnil)

/-- **Typing edits the text.** -/
theorem edits_type (e : Entry) (c : Char) : Edits (.char c) e.text (e.type c).1.text := by
  unfold type
  by_cases hc : Operator.isSymbol c = true
  · rw [if_pos hc]
    by_cases hempty : (e.text.isEmpty && c != '-') = true
    · rw [if_pos hempty]
      exact .keeps (List.prefix_refl _)
    · rw [if_neg hempty]
      by_cases hend : e.endsWithOperator = true
      · rw [if_pos hend, replaceOperator, if_pos hend]
        obtain ⟨kept, op, htext, hop⟩ := endsWithOperator_iff.1 hend
        rw [htext, List.dropLast_concat]
        exact .replaces hop hc
      · rw [if_neg hend]
        apply edits_append
        intro _
        refine ⟨Bool.eq_false_iff.2 hend, fun htext => ?_⟩
        simpa [htext] using hempty
  · rw [if_neg hc]
    exact edits_append e c fun h => absurd h hc

end Entry

namespace Panel

open Entry (Edits)
open Evaluation (evaluate)

/-- **A press shows a result or edits the text.** -/
theorem edits_or_result (p : Panel) (k : Press) :
    Edits k p.entry.text (p.press k).entry.text ∨
      ∃ v, k = .equals ∧ evaluate p.expression = .ok v ∧
        (p.press k).entry = .ofResult (NumberFormat.result.write v) := by
  cases k with
  | char c => exact .inl (Entry.edits_type p.entry c)
  | clear => exact .inl (.keeps (List.nil_prefix))
  | back => exact .inl (.keeps (List.dropLast_prefix _))
  | equals =>
    rw [press, equals]
    cases hv : evaluate p.expression with
    | ok v => exact .inr ⟨v, rfl, rfl, rfl⟩
    | error e => exact .inl (.keeps (List.nil_prefix))

theorem run_concat (p : Panel) (presses : List Press) (k : Press) :
    p.run (presses ++ [k]) = (p.run presses).press k :=
  List.foldl_concat ..

/-- What is evaluated is the line, or zero. -/
theorem expression_cases (p : Panel) :
    (p.entry.text = [] ∧ p.expression = ['0']) ∨
      (p.entry.text ≠ [] ∧ p.expression = p.entry.text) := by
  unfold expression
  by_cases h : p.entry.text = []
  · rw [if_pos (by simp [h])]
    exact .inl ⟨h, rfl⟩
  · rw [if_neg (by simpa using h)]
    exact .inr ⟨h, rfl⟩

/-- **What a line is, it has become by some press**, and has been ever since. -/
theorem exists_since {P : List Char → Prop} (hstart : ¬ P []) {presses : List Press}
    (h : P (run {} presses).entry.text) : ∃ before k after, presses = before ++ k :: after ∧
      ¬ P (run {} before).entry.text ∧
      ∀ middle, middle <+: after → P (run {} (before ++ k :: middle)).entry.text := by
  induction presses using List.reverseRecOn with
  | nil => exact absurd h hstart
  | append_singleton presses k ih =>
    by_cases hbefore : P (run {} presses).entry.text
    · obtain ⟨before, k', after, rfl, hnot, hmiddle⟩ := ih hbefore
      refine ⟨before, k', after ++ [k], by simp, hnot, fun middle hprefix => ?_⟩
      rcases List.prefix_concat_iff.1 hprefix with rfl | hprefix
      · simpa using h
      · exact hmiddle middle hprefix
    · refine ⟨presses, k, [], rfl, hbefore, fun middle hprefix => ?_⟩
      rw [List.prefix_nil.1 hprefix]
      exact h

end Panel
end KeypadCalculator
