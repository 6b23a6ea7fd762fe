import KeypadCalculator.Proofs.Keypad.Failures
import KeypadCalculator.Proofs.Keypad.LastPress
import KeypadCalculator.Proofs.Program.Lines

/-!
# What a piped session prints

A session goes through lines of bytes, and only those before the first that is not text count
(`texts`). For each of them it prints one display (`stdout_session`), namely what the panel shows
after all presses up to there (`displays_eq_map`), and no display has a newline in it
(`newline_not_mem_of_mem_displays`). A line that is not text ends the session and is all that its
code tells of (`code_session_eq_one_iff`).
-/

namespace KeypadCalculator.Program

open Press (OnKeypad)

variable {first : List (List UInt8)} {line : List UInt8}

/-! ## Lines that are text -/

/-- The lines up to the first that is not text. -/
def texts : List (List UInt8) → List (List Char)
  | [] => []
  | line :: rest =>
    match decode? line with
    | none => []
    | some text => text :: texts rest

theorem length_texts (lines : List (List UInt8)) :
    (texts lines).length = (lines.takeWhile fun line => (decode? line).isSome).length := by
  induction lines with
  | nil => rfl
  | cons line rest ih =>
    cases hline : decode? line with
    | none => simp [texts, hline]
    | some text => simp [texts, hline, ih]

theorem texts_map_encode (lines : List (List Char)) : texts (lines.map encode) = lines := by
  induction lines with
  | nil => rfl
  | cons line rest ih => rw [List.map_cons, texts, decode?_encode, ih]

/-- More lines do not change which of the lines before them count. -/
theorem texts_prefix_append (first second : List (List UInt8)) :
    texts first <+: texts (first ++ second) := by
  induction first with
  | nil => exact List.nil_prefix
  | cons line rest ih =>
    rw [List.cons_append, texts, texts]
    cases decode? line with
    | none => exact List.prefix_rfl
    | some text => exact (List.prefix_cons_inj text).2 ih

/-! ## Displays -/

/-- The displays that are shown after each of the lines. -/
def displays (p : Panel) : List (List Char) → List (List Char)
  | [] => []
  | text :: rest =>
    let next := p.run (presses text)
    next.display.render :: displays next rest

/-- **The display after a line is that of all presses up to there.** -/
theorem displays_eq_map (p : Panel) (texts : List (List Char)) :
    displays p texts = (List.range texts.length).map fun k =>
      (p.run ((texts.take (k + 1)).flatMap presses)).display.render := by
  induction texts generalizing p with
  | nil => rfl
  | cons text rest ih =>
    have hfirst : (p.run (((text :: rest).take 1).flatMap presses)).display.render
        = (p.run (presses text)).display.render := by
      rw [List.take_succ_cons, List.take_zero, List.flatMap_singleton]
    have hlater (k : ℕ) : (p.run (((text :: rest).take (k + 2)).flatMap presses)).display.render
        = ((p.run (presses text)).run ((rest.take (k + 1)).flatMap presses)).display.render := by
      rw [List.take_succ_cons, List.flatMap_cons, Panel.run_append]
    rw [displays, ih, List.length_cons, List.range_succ_eq_map, List.map_cons, List.map_map,
      hfirst]
    exact congrArg _ (List.map_congr_left fun k _ => (hlater k).symm)

theorem length_displays (p : Panel) (texts : List (List Char)) :
    (displays p texts).length = texts.length := by
  rw [displays_eq_map, List.length_map, List.length_range]

theorem displays_prefix_append (p : Panel) (first second : List (List Char)) :
    displays p first <+: displays p (first ++ second) := by
  induction first generalizing p with
  | nil => exact List.nil_prefix
  | cons text rest ih => exact (List.prefix_cons_inj _).2 (ih _)

/-- A display of a keypad is one line. -/
theorem newline_not_mem_render {presses : List Press} (h : ∀ k ∈ presses, OnKeypad k) :
    '\n' ∉ (Panel.run {} presses).display.render := by
  have hline : '\n' ∉ (Panel.run {} presses).entry.text := by
    intro hmem
    rcases Panel.isKeypadChar_or_e_of_mem_text h _ hmem with hc | hc <;> cases hc
  have hdisplay : (Panel.run {} presses).display = .error ∨
      (Panel.run {} presses).display = .text (Panel.run {} presses).entry.text := by
    induction presses using List.reverseRecOn with
    | nil => exact .inr rfl
    | append_singleton presses k ih =>
      rw [Panel.run_concat]
      have hleaves := Panel.leaves_press (Panel.text_ne_nil_of_isResult presses) k
      rcases hleaves.display_cases with ⟨-, heq⟩ | ⟨-, htext⟩
      · exact .inl (by rw [heq])
      · exact .inr htext
  rcases hdisplay with herror | htext
  · rw [herror]
    decide
  · rw [htext]
    generalize (Panel.run {} presses).entry.text = text at hline ⊢
    cases text with
    | nil => decide
    | cons c rest => exact hline

theorem newline_not_mem_of_mem_displays {texts : List (List Char)} {shown : List Char}
    (h : shown ∈ displays {} texts) : '\n' ∉ shown := by
  rw [displays_eq_map, List.mem_map] at h
  obtain ⟨k, -, rfl⟩ := h
  apply newline_not_mem_render
  intro press hpress
  obtain ⟨text, -, hmem⟩ := List.mem_flatMap.1 hpress
  obtain ⟨word, -, hword⟩ := List.mem_flatMap.1 hmem
  exact Press.onKeypad_of_mem_ofWord hword

/-! ## Output -/

/-- Displays as they are printed, each on a line of its own. -/
def printed (shown : List (List Char)) : String :=
  String.join (shown.map fun display => String.ofList display ++ "\n")

theorem printed_cons (display : List Char) (rest : List (List Char)) :
    printed (display :: rest) = String.ofList display ++ "\n" ++ printed rest :=
  String.join_cons

theorem printed_append (first second : List (List Char)) :
    printed (first ++ second) = printed first ++ printed second := by
  rw [printed, List.map_append, String.join_append]
  rfl

/-- **A session prints one display for each line**, up to the first that is not text. -/
theorem stdout_session (level : LogLevel) (p : Panel) (lines : List (List UInt8)) :
    (session level p lines).stdout = printed (displays p (texts lines)) := by
  induction lines generalizing p with
  | nil => rfl
  | cons line rest ih =>
    rw [session, texts]
    cases decode? line with
    | none => rfl
    | some text =>
      show _ = printed (_ :: displays (p.run (presses text)) (texts rest))
      rw [printed_cons, ← ih]

theorem code_session_le (level : LogLevel) (p : Panel) (lines : List (List UInt8)) :
    (session level p lines).code ≤ 1 := by
  induction lines generalizing p with
  | nil => exact Nat.zero_le 1
  | cons line rest ih =>
    rw [session]
    cases decode? line with
    | none => exact Nat.le_refl 1
    | some text => exact ih _

/-- The code of a session tells whether there was a line that is not text, and nothing else. -/
theorem code_session_eq_one_iff (level : LogLevel) (p : Panel) (lines : List (List UInt8)) :
    (session level p lines).code = 1 ↔ ∃ line ∈ lines, decode? line = none := by
  induction lines generalizing p with
  | nil => exact iff_of_false Nat.zero_ne_one (by simp)
  | cons line rest ih =>
    rw [session, List.exists_mem_cons_iff]
    cases hline : decode? line with
    | none => exact iff_of_true rfl (.inl rfl)
    | some text => simpa using ih (p.run (presses text))

/-- After a line that is not text nothing counts. -/
theorem session_append_of_mem (h : line ∈ first) (hline : decode? line = none)
    (level : LogLevel) (p : Panel) (second : List (List UInt8)) :
    session level p (first ++ second) = session level p first := by
  induction first generalizing p with
  | nil => cases h
  | cons other rest ih =>
    rw [List.cons_append, session, session]
    cases hother : decode? other with
    | none => rfl
    | some text =>
      have hrest : line ∈ rest := by
        rcases List.mem_cons.1 h with rfl | h
        · rw [hline] at hother
          cases hother
        · exact h
      dsimp only
      rw [ih hrest]

end KeypadCalculator.Program
