import KeypadCalculator.Proofs.Program.Session

/-!
# A session is a stream

What a session has printed is never taken back: more input only adds output
(`stdout_append`), and after a line that is not text it adds nothing at all (`run_append_of_mem`).
How many lines are printed, and whether the session ends with a failure, is decided by the lines
that are text, not by what the evaluations in them came to (`session_is_streamed`).
-/

namespace KeypadCalculator.Program

variable {first : List UInt8} {line : List UInt8}

theorem run_session (level : LogLevel) (stdin : List UInt8) :
    run level [] stdin = session level {} (lines stdin) :=
  rfl

/-- **More input only adds output**, when what came before ends with a newline. -/
theorem stdout_append (level : LogLevel) (h : first = [] ∨ first.getLast? = some 10)
    (second : List UInt8) : ∃ later,
      (run level [] (first ++ second)).stdout = (run level [] first).stdout ++ later := by
  rw [run_session, run_session, lines_append h, stdout_session, stdout_session]
  obtain ⟨more, hmore⟩ := texts_prefix_append (lines first) (lines second)
  obtain ⟨later, hlater⟩ := displays_prefix_append {} (texts (lines first)) more
  exact ⟨printed later, by rw [← hmore, ← hlater, printed_append]⟩

/-- After a line that is not text more input makes no difference. -/
theorem run_append_of_mem (level : LogLevel) (h : first = [] ∨ first.getLast? = some 10)
    (hmem : line ∈ lines first) (hline : decode? line = none) (second : List UInt8) :
    run level [] (first ++ second) = run level [] first := by
  rw [run_session, run_session, lines_append h]
  exact session_append_of_mem hmem hline level {} (lines second)

/-- **A session is a stream.** Input whose last line is ended prints the beginning of what it prints
with more input behind it; and once a line is not text, whatever follows it changes neither output
nor log nor code, which is 1. Always one line is printed for each line of input before the first
that is not text, and the code is 1 exactly if there is such a line, whatever the presses came
to. -/
theorem session_is_streamed (level : LogLevel) (h : first = [] ∨ first.getLast? = some 10)
    (second : List UInt8) :
    (∃ later, (run level [] (first ++ second)).stdout = (run level [] first).stdout ++ later) ∧
    ((∃ line ∈ lines first, decode? line = none) →
      run level [] (first ++ second) = run level [] first ∧ (run level [] first).code = 1) ∧
    ∀ stdin,
      (∃ shown, (run level [] stdin).stdout = printed shown ∧ (∀ display ∈ shown, '\n' ∉ display) ∧
        shown.length = ((lines stdin).takeWhile fun line => (decode? line).isSome).length) ∧
      ((run level [] stdin).code = 1 ↔ ∃ line ∈ lines stdin, decode? line = none) ∧
      (run level [] stdin).code ≤ 1 := by
  refine ⟨stdout_append level h second, ?_, fun stdin => ⟨?_, ?_, ?_⟩⟩
  · intro hbad
    have hcode := (code_session_eq_one_iff level {} (lines first)).2 hbad
    obtain ⟨line, hmem, hline⟩ := hbad
    exact ⟨run_append_of_mem level h hmem hline second, hcode⟩
  · refine ⟨displays {} (texts (lines stdin)), stdout_session level {} (lines stdin),
      fun display hdisplay => newline_not_mem_of_mem_displays hdisplay, ?_⟩
    rw [length_displays, length_texts]
  · exact code_session_eq_one_iff level {} (lines stdin)
  · exact code_session_le level {} (lines stdin)

/-- A sum, a line that is not text, and a number that is never read. -/
theorem session_is_streamed_to_bad_line :
    let first := encode "1+2=\n".toList ++ [0xFF, 10]
    let second := encode "3\n".toList
    first.getLast? = some 10 ∧ (∃ line ∈ lines first, decode? line = none) ∧
    run .warn [] (first ++ second) = run .warn [] first ∧ (run .warn [] first).code = 1 := by
  intro first second
  have hlast : first.getLast? = some 10 := by decide +kernel
  have hbad : ∃ line ∈ lines first, decode? line = none :=
    ⟨[0xFF], by decide +kernel, by decide +kernel⟩
  exact ⟨hlast, hbad, (session_is_streamed .warn (.inr hlast) second).2.1 hbad⟩

end KeypadCalculator.Program
