import KeypadCalculator.Proofs.Evaluation.Spacing
import KeypadCalculator.Proofs.Program.Agreement

/-!
# An expression cut into arguments

Arguments are joined with spaces before they are evaluated, so an expression may be cut into
arguments wherever a space does no harm, which is everywhere but within a run of digits and points
(`spacing_is_irrelevant`).

The spaces are put in one after the other from the left. What was joined already is kept apart from
the arguments still to come (`joinedTo`), and each step is a space between the two.
-/

namespace KeypadCalculator

/-- A space behind the first part may be the last character before the cut. -/
theorem CutsNoRun.insert_space {before more second : List Char}
    (h : CutsNoRun (before ++ more) second) : CutsNoRun (before ++ ' ' :: more) second := by
  rintro ⟨hlast, hhead⟩
  refine h ⟨?_, hhead⟩
  rw [List.getLast?_append, List.getLast?_cons] at hlast
  rw [List.getLast?_append]
  cases hmore : more.getLast? with
  | none =>
    rw [hmore] at hlast
    cases hlast
  | some c => rwa [hmore] at hlast

namespace Program

open Evaluation (evaluate OfCalculation evaluate_insert_space)
open NumberFormat (result)

variable {before text : List Char} {arguments : List (List Char)}

/-! ## Joining from the left -/

/-- The text that arguments are joined to behind the text that is there. -/
def joinedTo (before : List Char) (arguments : List (List Char)) : List Char :=
  arguments.foldl (fun text a => if text.isEmpty then a else text ++ ' ' :: a) before

theorem joined_eq (arguments : List (List Char)) : joined arguments = joinedTo [] arguments := rfl

theorem joinedTo_nil (before : List Char) : joinedTo before [] = before := rfl

theorem joinedTo_cons (hne : before ≠ []) (argument : List Char) (rest : List (List Char)) :
    joinedTo before (argument :: rest) = joinedTo (before ++ ' ' :: argument) rest := by
  rw [joinedTo, List.foldl_cons, if_neg (by simpa using hne)]
  rfl

/-- Joining leaves no character out. -/
theorem length_le_joinedTo (before : List Char) (arguments : List (List Char)) :
    (before ++ arguments.flatten).length ≤ (joinedTo before arguments).length := by
  induction arguments generalizing before with
  | nil => exact Nat.le_of_eq (congrArg List.length (List.append_nil before))
  | cons argument rest ih =>
    by_cases hne : before = []
    · subst hne
      exact ih argument
    · have hrest := ih (before ++ ' ' :: argument)
      rw [joinedTo_cons hne]
      simp only [List.length_append, List.length_cons, List.flatten_cons] at hrest ⊢
      omega

/-- **Arguments come to what they come to without the spaces between them.** The induction is on the
arguments still to come; the hypothesis on the cuts is one on all of them. -/
theorem evaluate_joinedTo (h : OfCalculation (evaluate (before ++ arguments.flatten)))
    (hcuts : ∀ k < arguments.length,
      CutsNoRun (before ++ (arguments.take k).flatten) (arguments.drop k).flatten)
    (hlength : (joinedTo before arguments).length ≤ 120) :
    evaluate (joinedTo before arguments) = evaluate (before ++ arguments.flatten) := by
  induction arguments generalizing before with
  | nil => rw [joinedTo_nil, List.flatten_nil, List.append_nil]
  | cons argument rest ih =>
    have hlater : ∀ k < rest.length,
        CutsNoRun (before ++ (argument ++ (rest.take k).flatten)) (rest.drop k).flatten :=
      fun k hk => hcuts (k + 1) (Nat.succ_lt_succ hk)
    by_cases hne : before = []
    · -- the first argument that is not empty has no space before it
      subst hne
      exact ih h hlater hlength
    · rw [joinedTo_cons hne] at hlength ⊢
      rw [List.flatten_cons] at h ⊢
      have hfirst : CutsNoRun before (argument ++ rest.flatten) := by
        have hzero := hcuts 0 (Nat.succ_pos _)
        rwa [List.take_zero, List.flatten_nil, List.append_nil] at hzero
      have hspaced := length_le_joinedTo (before ++ ' ' :: argument) rest
      rw [List.append_assoc, List.cons_append] at hspaced
      have hstep := evaluate_insert_space h hfirst (hspaced.trans hlength)
      rw [← hstep] at h ⊢
      rw [← List.cons_append, ← List.append_assoc] at h ⊢
      refine ih h (fun k hk => ?_) hlength
      rw [List.append_assoc, List.cons_append]
      exact (hlater k hk).insert_space

/-! ## All together -/

/-- **Where an expression is spaced or cut is irrelevant**, if its text comes to something that the
calculation answers: a value, one that is not finite, or an error in the order of the tokens. A
space that cuts no run of digits and points does not change what it comes to. Cut into arguments at
such places, some of them empty perhaps, it prints what it prints as one argument, and ends with the
same code; and for an expression with a value that is the value on a line of its own. Only the text
with its spaces must not be too long. -/
theorem spacing_is_irrelevant (h : OfCalculation (evaluate text)) :
    (∀ first second, text = first ++ second → CutsNoRun first second →
      (first ++ ' ' :: second).length ≤ 120 →
      evaluate (first ++ ' ' :: second) = evaluate text) ∧
    ∀ (level : LogLevel) (stdin : List UInt8) (arguments : List (List Char)),
      arguments.flatten = text →
      (∀ k < arguments.length, CutsNoRun (arguments.take k).flatten (arguments.drop k).flatten) →
      (joined arguments).length ≤ 120 →
      let cut := run level (arguments.map encode) stdin
      let whole := run level [encode text] stdin
      cut.stdout = whole.stdout ∧ cut.code = whole.code ∧
        ∀ v, evaluate text = .ok v →
          whole.stdout = String.ofList (result.write v) ++ "\n" ∧ whole.code = 0 := by
  constructor
  · rintro first second rfl hcut hlength
    exact evaluate_insert_space h hcut hlength
  · rintro level stdin arguments rfl hcuts hlength
    have hne : arguments ≠ [] := by
      rintro rfl
      have hfault := h.fault?_eq_none
      cases hfault
    have hjoined : evaluate (joined arguments) = evaluate arguments.flatten := by
      rw [joined_eq] at hlength ⊢
      exact @evaluate_joinedTo [] arguments h hcuts hlength
    dsimp only
    rw [run_arguments level hne, run_argument, hjoined]
    cases evaluate arguments.flatten with
    | error e => exact ⟨rfl, rfl, fun v hv => nomatch hv⟩
    | ok v =>
      refine ⟨rfl, rfl, fun w hw => ?_⟩
      obtain rfl := Except.ok.inj hw
      exact ⟨rfl, rfl⟩

/-- A product with a space before its group, and cut into arguments of which two are empty. -/
theorem spacing_is_irrelevant_for_product :
    let text := "6×(2+.5)".toList
    let arguments := ["", "6×(", "", "2+", ".5)"].map String.toList
    OfCalculation (evaluate text) ∧
    (text = "6×".toList ++ "(2+.5)".toList ∧ CutsNoRun "6×".toList "(2+.5)".toList ∧
      ("6×".toList ++ ' ' :: "(2+.5)".toList).length ≤ 120 ∧
      evaluate ("6×".toList ++ ' ' :: "(2+.5)".toList) = evaluate text) ∧
    arguments.flatten = text ∧
    (∀ k < arguments.length, CutsNoRun (arguments.take k).flatten (arguments.drop k).flatten) ∧
    (joined arguments).length ≤ 120 ∧
    (run .warn (arguments.map encode) []).stdout = String.ofList (result.write 15) ++ "\n" ∧
    (run .warn (arguments.map encode) []).code = 0 := by
  intro text arguments
  have hvalue : evaluate text = .ok 15 := by decide +kernel
  have hsplit : text = "6×".toList ++ "(2+.5)".toList := by decide
  have hcut : CutsNoRun "6×".toList "(2+.5)".toList := by decide
  have hspaced : ("6×".toList ++ ' ' :: "(2+.5)".toList).length ≤ 120 := by decide
  have hflatten : arguments.flatten = text := by decide
  have hcuts : ∀ k < arguments.length,
      CutsNoRun (arguments.take k).flatten (arguments.drop k).flatten := by decide
  have hlength : (joined arguments).length ≤ 120 := by decide
  have h : OfCalculation (evaluate text) := .inl ⟨15, hvalue⟩
  obtain ⟨hspace, hjoined⟩ := spacing_is_irrelevant h
  obtain ⟨hstdout, hcode, hwhole⟩ := hjoined .warn [] arguments hflatten hcuts hlength
  obtain ⟨hshown, hsuccess⟩ := hwhole 15 hvalue
  exact ⟨h, ⟨hsplit, hcut, hspaced, hspace _ _ hsplit hcut hspaced⟩, hflatten, hcuts, hlength,
    hstdout.trans hshown, hcode.trans hsuccess⟩

end Program
end KeypadCalculator
