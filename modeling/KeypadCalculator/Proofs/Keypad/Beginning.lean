import KeypadCalculator.Proofs.Evaluation.Value
import KeypadCalculator.Proofs.Keypad.Edits
import KeypadCalculator.Proofs.Number.ResultText

/-!
# How the entry line begins

An empty line takes no operator but a minus, so an expression should not begin with another one. But
an operator takes the place of one before it without a look at what is left of it, and so takes the
place of a minus that begins the line (`plus_begins_line`). That is the only way: a line that begins
with another operator has done so ever since a lone minus was replaced
(`begins_refused_since_minus_replaced`).
-/

namespace KeypadCalculator

variable {text : List Char} {c : Char}

namespace Entry

/-- The operators that an empty line does not take. -/
def refusedFirst : List Char :=
  ['+', '*', '/', '%']

theorem mem_refusedFirst_iff :
    c ∈ refusedFirst ↔ Operator.isSymbol c = true ∧ c ≠ '-' := by
  rw [Operator.isSymbol_iff_mem, refusedFirst]
  simp only [List.mem_cons, List.not_mem_nil, or_false]
  constructor
  · rintro (rfl | rfl | rfl | rfl) <;> decide
  · rintro ⟨rfl | rfl | rfl | rfl | rfl, hne⟩
    · exact .inl rfl
    · exact absurd rfl hne
    · exact .inr (.inl rfl)
    · exact .inr (.inr (.inl rfl))
    · exact .inr (.inr (.inr rfl))

/-- The text begins with an operator that an empty line does not take. -/
def BeginsRefused (text : List Char) : Prop :=
  ∃ c ∈ text.head?, c ∈ refusedFirst

theorem not_beginsRefused_nil : ¬ BeginsRefused [] := by
  simp [BeginsRefused]

theorem beginsRefused_cons_iff {rest : List Char} :
    BeginsRefused (c :: rest) ↔ c ∈ refusedFirst := by
  simp [BeginsRefused]

/-- What comes after the first character does not matter. -/
theorem beginsRefused_append_iff {more : List Char} (h : text ≠ []) :
    BeginsRefused (text ++ more) ↔ BeginsRefused text := by
  rw [BeginsRefused, List.head?_append_of_ne_nil _ h, BeginsRefused]

/-- A line comes to begin with such an operator only when a lone minus is replaced. -/
theorem Edits.beginsRefused {k : Press} {next : List Char} (hedit : Edits k text next)
    (hnext : BeginsRefused next) : BeginsRefused text ∨
      ∃ op, text = ['-'] ∧ k = .char op ∧ op ∈ refusedFirst := by
  cases hedit with
  | keeps hkept =>
    obtain ⟨more, rfl⟩ := hkept
    left
    have hne : next ≠ [] := by
      rintro rfl
      exact not_beginsRefused_nil hnext
    exact (beginsRefused_append_iff hne).2 hnext
  | @adds _ kept c hkept _ hfirst =>
    by_cases hne : kept = []
    · -- the character begins the line, where it would have been refused
      subst hne
      exfalso
      rw [List.nil_append, beginsRefused_cons_iff, mem_refusedFirst_iff] at hnext
      exact hnext.2 (hfirst rfl hnext.1)
    · rcases hkept with rfl | ⟨hnil, -⟩
      · exact .inl ((beginsRefused_append_iff hne).1 hnext)
      · exact absurd hnil hne
  | @addsZero _ kept hkept _ =>
    by_cases hne : kept = []
    · subst hne
      exact absurd hnext (by rw [List.nil_append, beginsRefused_cons_iff]; decide)
    · rcases hkept with rfl | hnil
      · exact .inl ((beginsRefused_append_iff hne).1 hnext)
      · exact absurd hnil hne
  | @replaces kept old new hold hnew =>
    by_cases hne : kept = []
    · subst hne
      rw [List.nil_append, beginsRefused_cons_iff] at hnext
      rw [List.nil_append, beginsRefused_cons_iff]
      by_cases hminus : old = '-'
      · exact .inr ⟨new, by rw [hminus], rfl, hnext⟩
      · left
        exact mem_refusedFirst_iff.2 ⟨hold, hminus⟩
    · rw [beginsRefused_append_iff hne] at hnext
      exact .inl ((beginsRefused_append_iff hne).2 hnext)

theorem not_beginsRefused_plain {numeral more : List Char} (h : Numeral.IsPlain numeral) :
    ¬ BeginsRefused (numeral ++ more) := by
  obtain ⟨c, hc, hdigit⟩ := h.head
  obtain ⟨rest, rfl⟩ := List.head?_eq_some_iff.1 hc
  rw [List.cons_append, beginsRefused_cons_iff, mem_refusedFirst_iff,
    not_isSymbol_of_isDigit hdigit]
  simp

/-- A result begins with a digit or a minus. -/
theorem not_beginsRefused_write {x : Float} (hfinite : Binary.isFinite x = true) :
    ¬ BeginsRefused (NumberFormat.result.write x) := by
  obtain ⟨negated, numeral, ending, htext, hplain, -⟩ := NumberFormat.exists_write_eq hfinite
  rw [htext]
  cases negated with
  | false =>
    show ¬ BeginsRefused (numeral ++ ending)
    exact not_beginsRefused_plain hplain
  | true =>
    show ¬ BeginsRefused ('-' :: (numeral ++ ending))
    rw [beginsRefused_cons_iff]
    decide

end Entry

namespace Panel

open Entry

/-- A line that begins with a refused operator has done so since one replaced a lone minus. -/
theorem exists_replaced_minus {presses : List Press}
    (h : BeginsRefused (run {} presses).entry.text) : ∃ before op after,
      presses = before ++ Press.char op :: after ∧ (run {} before).entry.text = ['-'] ∧
        op ∈ refusedFirst ∧ ∀ middle, middle <+: after →
          BeginsRefused (run {} (before ++ Press.char op :: middle)).entry.text := by
  obtain ⟨before, k, after, rfl, hnot, hmiddle⟩ := exists_since not_beginsRefused_nil h
  have hnext := hmiddle [] List.nil_prefix
  rw [run_concat] at hnext
  rcases (run {} before).edits_or_result k with hedit | ⟨v, -, hv, hentry⟩
  · rcases hedit.beginsRefused hnext with hbefore | ⟨op, htext, rfl, hop⟩
    · exact absurd hbefore hnot
    · exact ⟨before, op, after, rfl, htext, hop, hmiddle⟩
  · rw [hentry] at hnext
    exact absurd hnext (not_beginsRefused_write (Evaluation.evaluate_eq_ok_iff.1 hv).2)

/-- Any operator replaces a minus that stands alone. -/
theorem press_operator_of_minus {p : Panel} (hp : p.entry.text = ['-']) {op : Char}
    (hop : Operator.isSymbol op = true) : (p.press (.char op)).entry.text = [op] := by
  have hend : p.entry.endsWithOperator = true := endsWithOperator_iff.2 ⟨[], '-', hp, rfl⟩
  show (p.entry.type op).1.text = [op]
  rw [type, if_pos hop, if_neg (by simp [hp]), if_pos hend, replaceOperator, if_pos hend, hp]
  rfl

/-- **A line begins with an operator other than minus only since a lone minus was replaced.** When
it does, some press put that operator or another such one in the place of a lone minus, and the line
has begun so ever since; and every such press on a lone minus makes the line begin so. -/
theorem begins_refused_since_minus_replaced (presses : List Press) :
    (BeginsRefused (run {} presses).entry.text → ∃ before op after,
      presses = before ++ Press.char op :: after ∧ (run {} before).entry.text = ['-'] ∧
        op ∈ ['+', '*', '/', '%'] ∧ ∀ middle, middle <+: after →
          BeginsRefused (run {} (before ++ Press.char op :: middle)).entry.text) ∧
    (∀ op ∈ ['+', '*', '/', '%'], (run {} presses).entry.text = ['-'] →
      (run {} (presses ++ [.char op])).entry.text = [op]) := by
  constructor
  · exact exists_replaced_minus
  · intro op hop htext
    rw [run_concat]
    exact press_operator_of_minus htext (mem_refusedFirst_iff.1 hop).1

/-- The keys minus and plus leave a line that begins with a plus. -/
theorem plus_begins_line :
    BeginsRefused (run {} (["-", "+"].filterMap Press.ofKey?)).entry.text :=
  ⟨'+', by decide, by decide⟩

end Panel
end KeypadCalculator
