import KeypadCalculator.Proofs.Keypad.Verbatim
import KeypadCalculator.Proofs.Program.Lines

/-!
# Arguments and keypad agree

An expression can be given to the program as an argument, or typed on one line of a piped session
with an equals sign behind it. For a text that can be typed as it is, both write the same result,
and where there is none, the session shows an error and the argument ends the program with a
failure (`keypad_agrees_with_argument`).
-/

namespace KeypadCalculator.Program

open Entry (IsTypable)
open Evaluation (evaluate)
open NumberFormat (result)

variable {text line : List Char} {c : Char} {v : Float}

/-! ## Arguments -/

theorem mapM_decode?_encode (arguments : List (List Char)) :
    (arguments.map encode).mapM decode? = some arguments := by
  induction arguments with
  | nil => rfl
  | cons argument rest ih =>
    rw [List.map_cons, List.mapM_cons, decode?_encode, ih]
    rfl

/-- What arguments make of the program is a matter of the text that they are joined to. -/
theorem run_arguments (level : LogLevel) {arguments : List (List Char)} (hne : arguments ≠ [])
    (stdin : List UInt8) :
    run level (arguments.map encode) stdin = match evaluate (joined arguments) with
      | .ok v => {
          stdout := String.ofList (result.write v) ++ "\n"
          stderr := Event.log level (Evaluation.events (joined arguments)) }
      | .error e => {
          stderr := Event.log level (Evaluation.events (joined arguments)) ++ e.message ++ "\n"
          code := 1 } := by
  rw [run, if_neg (by simpa using hne)]
  cases hvalue : evaluate (joined arguments) with
  | error e => simp only [evaluateArguments, mapM_decode?_encode, hvalue]
  | ok v => simp only [evaluateArguments, mapM_decode?_encode, hvalue]

/-- What one argument makes of the program. -/
theorem run_argument (level : LogLevel) (text : List Char) (stdin : List UInt8) :
    run level [encode text] stdin = match evaluate text with
      | .ok v => {
          stdout := String.ofList (result.write v) ++ "\n"
          stderr := Event.log level (Evaluation.events text) }
      | .error e => {
          stderr := Event.log level (Evaluation.events text) ++ e.message ++ "\n"
          code := 1 } :=
  run_arguments level (List.cons_ne_nil text []) stdin

/-! ## One line -/

theorem render_text (h : text ≠ []) : (Display.text text).render = text := by
  obtain ⟨c, rest, rfl⟩ := List.exists_cons_of_ne_nil h
  rfl

/-- What one line of text shows. -/
theorem run_line (level : LogLevel) (hne : line ≠ []) (hline : '\n' ∉ line)
    {ending : List Char} (hending : ending = [] ∨ ending = ['\n']) :
    let outcome := run level [] (encode (line ++ ending))
    outcome.code = 0 ∧
      outcome.stdout = String.ofList (Panel.run {} (presses line)).display.render ++ "\n" := by
  have hrun : run level [] (encode (line ++ ending)) = session level {} [encode line] := by
    rw [← lines_encode hne hline hending]
    rfl
  rw [hrun, session, decode?_encode]
  exact ⟨rfl, String.append_empty⟩

/-- A text without blanks is one word of a line, with a carriage return behind it or not. -/
theorem words_of_not_isBlank (hne : text ≠ []) (htext : ∀ c ∈ text, Text.isBlank c = false)
    {ending : List Char} (hending : ending = [] ∨ ending = ['\r']) :
    words (text ++ ending) = [text] := by
  have hpiece := List.splitOnP_eq_singleton htext
  rcases hending with rfl | rfl
  · rw [List.append_nil, words, hpiece]
    simp [hne]
  · rw [words, List.splitOnP_append_cons _ _ (by decide), hpiece, List.splitOnP_nil]
    simp [hne]

theorem isBlank_of_isKeypadChar (h : Press.isKeypadChar c = true) : Text.isBlank c = false := by
  rcases Entry.isKeypadChar_iff.1 h with hdigit | hmem
  · exact Lexeme.isBlank_of_isNumeralChar (Numeral.isNumeralChar_of_isDigit hdigit)
  · have hnone : ['+', '-', '*', '/', '%', '.', '(', ')'].any Text.isBlank = false := by decide
    exact Bool.eq_false_of_not_eq_true (List.any_eq_false.1 hnone c hmem)

theorem isBlank_of_mem_typed (h : IsTypable text) (hc : c ∈ text ++ ['=']) :
    Text.isBlank c = false := by
  rcases List.mem_append.1 hc with hc | hc
  · exact isBlank_of_isKeypadChar (h.isKeypadChar hc)
  · rw [List.mem_singleton.1 hc]
    rfl

/-- What is shown after a text with an equals sign behind it, with or without a carriage return. -/
theorem display_run_typed (h : IsTypable text) {ending : List Char}
    (hending : ending = [] ∨ ending = ['\r']) :
    (Panel.run {} (presses (text ++ ['='] ++ ending))).display = match evaluate text with
      | .ok v => .text (result.write v)
      | .error _ => .error := by
  have hwords : words (text ++ ['='] ++ ending) = [text ++ ['=']] :=
    words_of_not_isBlank (by simp) (fun c hc => isBlank_of_mem_typed h hc) hending
  rw [presses, hwords, List.flatMap_singleton]
  exact Panel.display_run_ofWord_equals h

/-- A text typed on one line, with an equals sign behind it, is evaluated. -/
theorem run_typed (level : LogLevel) (h : IsTypable text) {ending : List Char}
    (hending : ending ∈ [[], ['\n'], ['\r', '\n']]) :
    let outcome := run level [] (encode (text ++ '=' :: ending))
    outcome.code = 0 ∧ outcome.stdout = match evaluate text with
      | .ok v => String.ofList (result.write v) ++ "\n"
      | .error _ => "Error\n" := by
  -- a carriage return is part of the line, a newline is not
  obtain ⟨blank, newline, rfl, hblank, hnewline⟩ : ∃ blank newline, ending = blank ++ newline ∧
      (blank = [] ∨ blank = ['\r']) ∧ (newline = [] ∨ newline = ['\n']) := by
    simp only [List.mem_cons, List.not_mem_nil, or_false] at hending
    rcases hending with rfl | rfl | rfl
    · exact ⟨[], [], rfl, .inl rfl, .inl rfl⟩
    · exact ⟨[], ['\n'], rfl, .inl rfl, .inr rfl⟩
    · exact ⟨['\r'], ['\n'], rfl, .inr rfl, .inr rfl⟩
  have hline : '\n' ∉ text ++ ['='] ++ blank := by
    rw [List.mem_append, not_or]
    constructor
    · intro hmem
      exact absurd (isBlank_of_mem_typed h hmem) (by decide)
    · rcases hblank with rfl | rfl <;> decide
  have hrun := run_line level (by simp) hline hnewline
  rw [display_run_typed h hblank, List.append_assoc, List.append_assoc] at hrun
  refine ⟨hrun.1, hrun.2.trans ?_⟩
  cases hvalue : evaluate text with
  | ok v =>
    have hwrite := NumberFormat.write_ne_nil (Evaluation.evaluate_eq_ok_iff.1 hvalue).2
    dsimp only
    rw [render_text hwrite]
  | error e => rfl

/-! ## Both -/

/-- No result reads like an error. -/
theorem ofList_write_ne_error (hfinite : Binary.isFinite v = true) :
    String.ofList (result.write v) ++ "\n" ≠ "Error\n" := by
  intro heq
  have hchars : result.write v ++ ['\n'] = "Error\n".toList := by
    rw [← heq, String.toList_append, String.toList_ofList]
    rfl
  have hmem : 'E' ∈ result.write v ++ ['\n'] := by
    rw [hchars]
    decide
  rcases List.mem_append.1 hmem with hmem | hmem
  · exact absurd (Entry.isKeypadChar_or_e_of_mem_write hfinite hmem) (by decide)
  · exact absurd hmem (by decide)

/-- **Arguments and keypad agree on every text that can be typed as it is.** Typing the text leaves
it as the line. With an equals sign behind it, on one line of a session, it shows what the program
writes when it is given the text as an argument; and an error is shown exactly when the argument
ends the program with a failure. -/
theorem keypad_agrees_with_argument (level : LogLevel) (h : IsTypable text) {ending : List Char}
    (hending : ending ∈ [[], ['\n'], ['\r', '\n']]) (stdin : List UInt8) :
    (Panel.run {} (Press.ofWord text)).entry.text = text ∧
    let typed := run level [] (encode (text ++ '=' :: ending))
    let given := run level [encode text] stdin
    typed.code = 0 ∧ (given.code = 0 → typed.stdout = given.stdout) ∧
      (typed.stdout = "Error\n" ↔ given.code = 1) := by
  refine ⟨by rw [Panel.entry_run_ofWord h], ?_⟩
  obtain ⟨hcode, hstdout⟩ := run_typed level h hending
  refine ⟨hcode, ?_⟩
  rw [run_argument, hstdout]
  cases hvalue : evaluate text with
  | ok v =>
    have herror := ofList_write_ne_error (Evaluation.evaluate_eq_ok_iff.1 hvalue).2
    exact ⟨fun _ => rfl, fun hshown => absurd hshown herror, fun hcode => (nomatch hcode)⟩
  | error e => exact ⟨fun hcode => (nomatch hcode), fun _ => rfl, fun _ => rfl⟩

/-- A sum in parentheses with a sign before it, typed and given. -/
theorem keypad_agrees_with_negated_sum :
    IsTypable "-(1+2.50)".toList ∧ ['\n'] ∈ [[], ['\n'], ['\r', '\n']] ∧
    (Panel.run {} (Press.ofWord "-(1+2.50)".toList)).entry.text = "-(1+2.50)".toList ∧
    (run .warn [] (encode "-(1+2.50)=\n".toList)).stdout
      = (run .warn [encode "-(1+2.50)".toList] []).stdout := by
  have h : IsTypable "-(1+2.50)".toList := by decide +kernel
  have hending : ['\n'] ∈ [[], ['\n'], ['\r', '\n']] := by decide
  obtain ⟨htext, -, hsame, -⟩ := keypad_agrees_with_argument .warn h hending []
  refine ⟨h, hending, htext, hsame ?_⟩
  have hvalue : evaluate "-(1+2.50)".toList = .ok (-3.5) := by decide +kernel
  rw [run_argument, hvalue]

end KeypadCalculator.Program
