import KeypadCalculator.Proofs.Evaluation.Value
import KeypadCalculator.Proofs.Keypad.Edits
import KeypadCalculator.Proofs.Number.ResultText

/-!
# What the last press decides

Whether the line is a result and whether the display reports an error is a matter of the last press
alone (`last_press_decides`): an equals that succeeds leaves a result, one that fails leaves the
error and an empty line, and every other press leaves a line that is no result and shows it.

A character may be refused and leave the line as it was, so that a result could be taken for one that
still stands. It does not come to that, because what is refused at the start of a line is an operator
on an empty one, and a result is never empty (`text_ne_nil_of_isResult`); and what is refused in a
number is a digit or a point, which has already done away with the result (`isResult_base`).
-/

namespace KeypadCalculator

open Evaluation (evaluate)
open NumberFormat (result)

namespace Entry

variable {e : Entry} {text : List Char} {c : Char}

/-! ## Typed lines are no results -/

/-- A digit or a point is put on a line that is no result. -/
theorem isResult_base (h : (c.isDigit || c == '.') = true) : (e.base c).isResult = false := by
  rw [base, h, Bool.and_true]
  cases hresult : e.isResult with
  | false => exact hresult
  | true => rfl

/-- What is refused at the end of a text is a point or a zero. -/
theorem isDigit_or_point_of_rejection? {reason : Rejection} (h : rejection? text c = some reason) :
    (c.isDigit || c == '.') = true := by
  unfold rejection? at h
  split at h
  · rename_i hpoint
    rw [hpoint.1]
    rfl
  · split at h
    · rename_i hzero
      rw [hzero.1]
      rfl
    · cases h

/-- A line is no result once a character was put at its end, even if the character was refused. -/
theorem isResult_append (e : Entry) (c : Char) : (e.append c).1.isResult = false := by
  unfold append
  dsimp only
  cases hrejection : rejection? (e.base c).text c with
  | some reason => exact isResult_base (isDigit_or_point_of_rejection? hrejection)
  | none => rfl

/-- **A line is no result once a character was typed**, if results are not empty. -/
theorem isResult_type (h : e.isResult = true → e.text ≠ []) (c : Char) :
    (e.type c).1.isResult = false := by
  unfold type
  by_cases hc : Operator.isSymbol c = true
  · rw [if_pos hc]
    by_cases hempty : (e.text.isEmpty && c != '-') = true
    · -- the operator is refused and the line stays as it is, which was no result
      rw [if_pos hempty]
      rw [Bool.and_eq_true, List.isEmpty_iff] at hempty
      exact Bool.eq_false_iff.2 fun hresult => h hresult hempty.1
    · rw [if_neg hempty]
      by_cases hend : e.endsWithOperator = true
      · rw [if_pos hend, replaceOperator, if_pos hend]
      · rw [if_neg hend]
        exact isResult_append e c
  · rw [if_neg hc]
    exact isResult_append e c

end Entry

namespace Panel

variable {p q : Panel} {k : Press}

/-! ## What a press comes to -/

/-- The press is an equals, and the expression of the line has a value. -/
def Succeeds (p : Panel) (k : Press) : Prop :=
  k = .equals ∧ ∃ v, evaluate p.expression = .ok v

/-- The press is an equals, and the expression of the line has no value. -/
def Fails (p : Panel) (k : Press) : Prop :=
  k = .equals ∧ ∃ e, evaluate p.expression = .error e

/-- `Leaves p k next` says that the press `k` on the panel `p` comes to `next`, in one of three
ways. -/
inductive Leaves (p : Panel) (k : Press) : Panel → Prop
  /-- A result is shown. -/
  | result {v : Float} (hk : k = .equals) (hv : evaluate p.expression = .ok v) :
      Leaves p k (showing (.ofResult (result.write v)))
  /-- The error is shown, and the line is empty. -/
  | error {e : EvaluationError} (hk : k = .equals) (he : evaluate p.expression = .error e) :
      Leaves p k { entry := {}, display := .error }
  /-- The line is shown, and is no result. -/
  | line {entry : Entry} (hk : k ≠ .equals) (hresult : entry.isResult = false) :
      Leaves p k (showing entry)

/-- **Every press comes to one of the three**, if results are not empty. -/
theorem leaves_press (h : p.entry.isResult = true → p.entry.text ≠ []) (k : Press) :
    Leaves p k (p.press k) := by
  cases k with
  | char c => exact .line (by simp) (Entry.isResult_type h c)
  | clear => exact .line (by simp) rfl
  | back => exact .line (by simp) rfl
  | equals =>
    rw [press, equals]
    cases hv : evaluate p.expression with
    | ok v => exact .result rfl hv
    | error e => exact .error rfl hv

/-- In every run a result is not empty. -/
theorem text_ne_nil_of_isResult (presses : List Press)
    (h : (run {} presses).entry.isResult = true) : (run {} presses).entry.text ≠ [] := by
  induction presses using List.reverseRecOn with
  | nil => cases h
  | append_singleton presses k ih =>
    rw [run_concat] at h ⊢
    have hleaves := leaves_press ih k
    generalize (run {} presses).press k = next at h hleaves
    cases hleaves with
    | result hk hv => exact NumberFormat.write_ne_nil (Evaluation.evaluate_eq_ok_iff.1 hv).2
    | error hk he => cases h
    | line hk hresult =>
      rw [showing, hresult] at h
      cases h

/-! ## Flag and display -/

theorem Succeeds.not_fails (h : p.Succeeds k) : ¬ p.Fails k := by
  obtain ⟨-, v, hv⟩ := h
  rintro ⟨-, e, he⟩
  rw [hv] at he
  cases he

/-- The line is a result when an equals has just succeeded. -/
theorem Leaves.isResult_iff {next : Panel} (h : Leaves p k next) :
    next.entry.isResult = true ↔ p.Succeeds k := by
  cases h with
  | @result v hk hv =>
    have hsucceeds : p.Succeeds k := ⟨hk, v, hv⟩
    exact iff_of_true rfl hsucceeds
  | @error e hk he =>
    have hfails : p.Fails k := ⟨hk, e, he⟩
    exact iff_of_false Bool.false_ne_true fun hsucceeds => hsucceeds.not_fails hfails
  | line hk hresult =>
    refine iff_of_false ?_ fun hsucceeds => hk hsucceeds.1
    rw [showing, hresult]
    exact Bool.false_ne_true

/-- The display reports an error when an equals has just failed, and shows the line otherwise. -/
theorem Leaves.display_cases {next : Panel} (h : Leaves p k next) :
    (p.Fails k ∧ next = { entry := {}, display := .error }) ∨
      (¬ p.Fails k ∧ next.display = .text next.entry.text) := by
  cases h with
  | @result v hk hv =>
    have hsucceeds : p.Succeeds k := ⟨hk, v, hv⟩
    exact .inr ⟨hsucceeds.not_fails, rfl⟩
  | @error e hk he => exact .inl ⟨⟨hk, e, he⟩, rfl⟩
  | line hk hresult => exact .inr ⟨fun hfails => hk hfails.1, rfl⟩

/-! ## Starting over -/

/-- What a press comes to does not depend on the display before it. -/
theorem press_congr (h : p.entry = q.entry) (k : Press) : p.press k = q.press k := by
  have hexpression : p.expression = q.expression := by rw [expression, expression, h]
  cases k with
  | char c => rw [press, press, h]
  | clear => rw [press, press, h]
  | back => rw [press, press, h]
  | equals => rw [press, press, equals, equals, hexpression, h]

/-- Nor does anything after that press. -/
theorem run_cons_congr (h : p.entry = q.entry) (k : Press) (more : List Press) :
    p.run (k :: more) = q.run (k :: more) := by
  rw [run, run, List.foldl_cons, List.foldl_cons, press_congr h]

theorem run_append (p : Panel) (first second : List Press) :
    p.run (first ++ second) = (p.run first).run second :=
  List.foldl_append ..

/-- A clear and an equals that fails leave the line as it is at the start. -/
theorem entry_press_of_reset (h : k = .clear ∨ p.Fails k) : (p.press k).entry = {} := by
  rcases h with rfl | ⟨rfl, e, he⟩
  · rfl
  · rw [press, equals, he]
    rfl

/-- **The last press decides.** After any run and a press `k`, the line is a result exactly when `k`
was an equals that succeeded. The display reports an error exactly when `k` was an equals that
failed, and then the line is empty and no result; otherwise it shows the line. And when `k` was a
clear or an equals that failed, whatever is pressed next comes to what it comes to at the start. -/
theorem last_press_decides (presses : List Press) (k : Press) :
    let before := run {} presses
    let after := run {} (presses ++ [k])
    (after.entry.isResult = true ↔ k = .equals ∧ ∃ v, evaluate before.expression = .ok v) ∧
    (after.display = .error ↔ k = .equals ∧ ∃ e, evaluate before.expression = .error e) ∧
    (after.display = .error → after.entry.text = [] ∧ after.entry.isResult = false) ∧
    (after.display ≠ .error → after.display = .text after.entry.text) ∧
    (k = .clear ∨ (k = .equals ∧ ∃ e, evaluate before.expression = .error e) →
      ∀ next more, run {} (presses ++ [k] ++ next :: more) = run {} (next :: more)) := by
  intro before after
  have hafter : after = before.press k := run_concat {} presses k
  have hleaves : Leaves before k after := by
    rw [hafter]
    exact leaves_press (text_ne_nil_of_isResult presses) k
  refine ⟨hleaves.isResult_iff, ?_, ?_, ?_, ?_⟩
  · show after.display = .error ↔ before.Fails k
    rcases hleaves.display_cases with ⟨hfails, heq⟩ | ⟨hfails, htext⟩
    · exact iff_of_true (by rw [heq]) hfails
    · exact iff_of_false (by simp [htext]) hfails
  · intro herror
    rcases hleaves.display_cases with ⟨-, heq⟩ | ⟨-, htext⟩
    · rw [heq]
      exact ⟨rfl, rfl⟩
    · rw [htext] at herror
      cases herror
  · intro hne
    rcases hleaves.display_cases with ⟨-, heq⟩ | ⟨-, htext⟩
    · exact absurd (by rw [heq]) hne
    · exact htext
  · intro hreset next more
    rw [run_append]
    apply run_cons_congr
    rw [run_concat]
    exact entry_press_of_reset hreset

-- the letter of the exponent fails, and the next press starts over
example : (run {} (Press.ofWord "1/10000000=+1=7".toList)).display = .text ['7'] := by
  decide +kernel

end Panel
end KeypadCalculator
