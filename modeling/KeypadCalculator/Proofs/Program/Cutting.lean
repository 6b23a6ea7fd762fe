import KeypadCalculator.Proofs.Program.Agreement
import KeypadCalculator.Proofs.Program.Session

/-!
# How a session is cut into words and lines

A word that is no name is pressed character by character, and a blank presses nothing. So as long as
no word of a text is one of the long names, its presses are those of its characters
(`presses_eq_filterMap`), and where it is cut into words and lines only decides when a display is
printed, not what it shows (`cutting_is_irrelevant`).
-/

namespace KeypadCalculator

variable {text line : List Char} {c : Char}

/-! ## Names of one character -/

namespace Press

/-- The names of one character are the characters of the keypad, the equals sign and the three signs
that only buttons show. -/
theorem isKeypadChar_or_mem_of_ofName? {k : Press} (h : ofName? (String.ofList [c]) = some k) :
    isKeypadChar c = true ∨ c ∈ ['=', '÷', '×', '−'] := by
  by_contra hother
  simp only [List.mem_cons, List.not_mem_nil, or_false, not_or] at hother
  obtain ⟨hkeypad, hequals, hdiv, hmul, hsub⟩ := hother
  have hlong {name : String} (hname : name.toList.length ≠ 1) : String.ofList [c] ≠ name :=
    ofList_ne_of_length_ne hname
  have hshort {d : Char} (hd : c ≠ d) : String.ofList [c] ≠ String.ofList [d] :=
    fun heq => hd (List.singleton_inj.1 (String.ofList_injective heq))
  have hchar : ofChar? (String.ofList [c]) = none := by
    unfold ofChar?
    rw [String.toList_ofList]
    exact if_neg hkeypad
  have hkey : ofKey? (String.ofList [c]) = none := by
    rw [ofKey?, if_neg (not_or.2 ⟨hlong (by decide), hshort hequals⟩), if_neg (hlong (by decide)),
      if_neg (not_or.2 ⟨hlong (by decide), hlong (by decide)⟩), hchar]
  have haction : ofAction? (String.ofList [c]) = none := by
    rw [ofAction?, if_neg (hlong (by decide)), if_neg (hlong (by decide)),
      if_neg (hlong (by decide))]
  have hlabel : ofLabel? (String.ofList [c]) = none := by
    rw [ofLabel?, if_neg (hshort hdiv), if_neg (hshort hmul), if_neg (hshort hsub), hchar]
  rw [ofName?, hkey, haction, hlabel] at h
  cases h

/-- No blank is a name. -/
theorem ofName?_of_isBlank (h : Text.isBlank c = true) : ofName? (String.ofList [c]) = none := by
  by_contra hname
  obtain ⟨k, hk⟩ := Option.ne_none_iff_exists'.1 hname
  rcases isKeypadChar_or_mem_of_ofName? hk with hkeypad | hmem
  · rw [Program.isBlank_of_isKeypadChar hkeypad] at h
    cases h
  · have hnone : ['=', '÷', '×', '−'].any Text.isBlank = false := by decide
    exact List.any_eq_false.1 hnone c hmem h

end Press

namespace Program

/-! ## Presses of characters -/

/-- What the characters press, one by one. Characters that are no name press nothing. -/
def pressesOfChars (text : List Char) : List Press :=
  text.filterMap fun c => Press.ofName? (String.ofList [c])

theorem pressesOfChars_cons (c : Char) (rest : List Char) : pressesOfChars (c :: rest)
    = (Press.ofName? (String.ofList [c])).toList ++ pressesOfChars rest := by
  rw [pressesOfChars, List.filterMap_cons]
  cases Press.ofName? (String.ofList [c]) with
  | none => rfl
  | some press => rfl

/-- The characters that matter are those that are not blank. -/
theorem pressesOfChars_filter (text : List Char) :
    pressesOfChars (text.filter fun c => !Text.isBlank c) = pressesOfChars text := by
  induction text with
  | nil => rfl
  | cons c rest ih =>
    by_cases hc : Text.isBlank c = true
    · rw [List.filter_cons_of_neg (by simp [hc]), ih, pressesOfChars_cons,
        Press.ofName?_of_isBlank hc]
      rfl
    · rw [List.filter_cons_of_pos (by simpa using hc), pressesOfChars_cons, ih,
        pressesOfChars_cons]

/-- **Words that are no long names press what their characters press.** -/
theorem presses_eq_pressesOfChars
    (h : ∀ word ∈ words line, String.ofList word ∉ Press.longNames) :
    presses line = pressesOfChars line := by
  have hwords : ∀ word ∈ words line, Press.ofWord word = pressesOfChars word :=
    fun word hword => Press.ofWord_eq_filterMap (h word hword)
  calc presses line
      = (words line).flatMap pressesOfChars := List.flatMap_congr hwords
    _ = pressesOfChars (words line).flatten := by
        rw [pressesOfChars, List.filterMap_flatten, List.flatMap_def]
        rfl
    _ = pressesOfChars line := by rw [flatten_words, pressesOfChars_filter]

/-- The same for lines one after the other. -/
theorem flatMap_presses_eq_pressesOfChars {lines : List (List Char)}
    (h : ∀ line ∈ lines, ∀ word ∈ words line, String.ofList word ∉ Press.longNames) :
    lines.flatMap presses = pressesOfChars lines.flatten := by
  have hlines : ∀ line ∈ lines, presses line = pressesOfChars line :=
    fun line hline => presses_eq_pressesOfChars (h line hline)
  rw [List.flatMap_congr hlines, pressesOfChars, List.filterMap_flatten, List.flatMap_def]
  rfl

/-! ## Displays of a text -/

/-- The displays of a text: after each line, what the characters up to there show. -/
def displaysOfChars (text : List Char) : List (List Char) :=
  (List.range (textLines text).length).map fun k =>
    (Panel.run {} (pressesOfChars ((textLines text).take (k + 1)).flatten)).display.render

theorem displays_textLines (h : ∀ word ∈ words text, String.ofList word ∉ Press.longNames) :
    displays {} (textLines text) = displaysOfChars text := by
  have hlines : ∀ line ∈ textLines text, ∀ word ∈ words line,
      String.ofList word ∉ Press.longNames := by
    intro line hline word hword
    apply h
    rw [words_eq_flatMap_textLines]
    exact List.mem_flatMap.2 ⟨line, hline, hword⟩
  rw [displays_eq_map, displaysOfChars]
  apply List.map_congr_left
  intro k _
  rw [flatMap_presses_eq_pressesOfChars fun line hline => hlines line (List.mem_of_mem_take hline)]

/-- The last display shows what all characters show. -/
theorem exists_displaysOfChars_eq_concat (h : textLines text ≠ []) : ∃ before,
    displaysOfChars text
      = before ++ [(Panel.run {} (pressesOfChars text)).display.render] := by
  obtain ⟨n, hn⟩ : ∃ n, (textLines text).length = n + 1 :=
    Nat.exists_eq_add_one.2 (List.length_pos_iff.2 h)
  have hall : pressesOfChars ((textLines text).take (n + 1)).flatten = pressesOfChars text := by
    have hnewline : (text.filter (· ≠ '\n')).filter (fun c => !Text.isBlank c)
        = text.filter fun c => !Text.isBlank c := by
      rw [List.filter_filter]
      apply List.filter_congr
      intro c _
      by_cases hc : c = '\n'
      · subst hc
        rfl
      · simp [hc]
    rw [List.take_of_length_le (Nat.le_of_eq hn), textLines, flatten_linesAt,
      ← pressesOfChars_filter, hnewline, pressesOfChars_filter]
  rw [displaysOfChars, hn, List.range_succ, List.map_append, List.map_singleton, hall]
  exact ⟨_, rfl⟩

/-! ## Sessions of text -/

/-- What a session of text prints. -/
theorem run_of_decode? (level : LogLevel) {stdin : List UInt8} (hstdin : decode? stdin = some text)
    (h : ∀ word ∈ words text, String.ofList word ∉ Press.longNames) :
    (run level [] stdin).code = 0 ∧
      (run level [] stdin).stdout = printed (displaysOfChars text) := by
  have hlines : lines stdin = (textLines text).map encode := by
    rw [eq_encode_of_decode? hstdin, lines_encode_eq_map]
  have hrun : run level [] stdin = session level {} ((textLines text).map encode) := by
    rw [← hlines]
    rfl
  rw [hrun]
  constructor
  · have hgood : ¬ (session level {} ((textLines text).map encode)).code = 1 := by
      rw [code_session_eq_one_iff]
      rintro ⟨line, hmem, hline⟩
      obtain ⟨other, -, rfl⟩ := List.mem_map.1 hmem
      rw [decode?_encode] at hline
      cases hline
    have hle := code_session_le level {} ((textLines text).map encode)
    omega
  · rw [stdout_session, texts_map_encode, displays_textLines h]

/-- **Cutting is irrelevant.** A session of text without long names succeeds and prints one display
for each line, and the display after a line is what a panel shows when the characters up to there
are pressed one by one. So two such texts with the same characters, but for blanks, end with the
same display, if both have a line at all. -/
theorem cutting_is_irrelevant (level : LogLevel) {stdin : List UInt8}
    (hstdin : decode? stdin = some text)
    (h : ∀ word ∈ words text, String.ofList word ∉ Press.longNames) :
    ((run level [] stdin).code = 0 ∧
      (run level [] stdin).stdout = printed (displaysOfChars text)) ∧
    ∀ {stdin' text'}, decode? stdin' = some text' →
      (∀ word ∈ words text', String.ofList word ∉ Press.longNames) →
      text.filter (fun c => !Text.isBlank c) = text'.filter (fun c => !Text.isBlank c) →
      textLines text ≠ [] → textLines text' ≠ [] → ∃ before before' last,
        (run level [] stdin).stdout = printed (before ++ [last]) ∧
        (run level [] stdin').stdout = printed (before' ++ [last]) := by
  have hrun := run_of_decode? level hstdin h
  refine ⟨hrun, ?_⟩
  intro stdin' text' hstdin' h' hsame hne hne'
  have hpresses : pressesOfChars text = pressesOfChars text' := by
    rw [← pressesOfChars_filter text, hsame, pressesOfChars_filter]
  obtain ⟨before, hbefore⟩ := exists_displaysOfChars_eq_concat hne
  obtain ⟨before', hbefore'⟩ := exists_displaysOfChars_eq_concat hne'
  rw [← hpresses] at hbefore'
  have hstdout' := (run_of_decode? level hstdin' h').2
  exact ⟨before, before', _, by rw [hrun.2, hbefore], by rw [hstdout', hbefore']⟩

/-- The same keys on two lines, with a carriage return, and in one word. -/
theorem cutting_is_irrelevant_for_product :
    let text := "1 2+3\r\n×2 =\n".toList
    let text' := "12+3×2=".toList
    (decode? (encode text) = some text ∧
      ∀ word ∈ words text, String.ofList word ∉ Press.longNames) ∧
    (decode? (encode text') = some text' ∧
      ∀ word ∈ words text', String.ofList word ∉ Press.longNames) ∧
    text.filter (fun c => !Text.isBlank c) = text'.filter (fun c => !Text.isBlank c) ∧
    textLines text ≠ [] ∧ textLines text' ≠ [] ∧ ∃ before before' last,
      (run .warn [] (encode text)).stdout = printed (before ++ [last]) ∧
      (run .warn [] (encode text')).stdout = printed (before' ++ [last]) := by
  intro text text'
  have hwords : ∀ word ∈ words text, String.ofList word ∉ Press.longNames := by decide +kernel
  have hwords' : ∀ word ∈ words text', String.ofList word ∉ Press.longNames := by decide +kernel
  have hsame : text.filter (fun c => !Text.isBlank c) = text'.filter fun c => !Text.isBlank c := by
    decide +kernel
  have hlines : textLines text ≠ [] ∧ textLines text' ≠ [] := by decide +kernel
  have hdecode := decode?_encode text
  have hdecode' := decode?_encode text'
  exact ⟨⟨hdecode, hwords⟩, ⟨hdecode', hwords'⟩, hsame, hlines.1, hlines.2,
    (cutting_is_irrelevant .warn hdecode hwords).2 hdecode' hwords' hsame hlines.1 hlines.2⟩

end Program
end KeypadCalculator
