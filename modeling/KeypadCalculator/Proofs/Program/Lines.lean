import KeypadCalculator.Proofs.Program.Bytes

/-!
# Lines and words

A text is cut into lines at its newlines, and so are the bytes of it (`lines_encode_eq_map`): no
byte of another character is a newline. What is cut further into words is cut at the newlines as
well, so the words of a text are those of its lines (`words_eq_flatMap_textLines`). Nothing is lost
but newlines (`flatten_linesAt`) and blanks (`flatten_words`).

Lines that are ended stay what they are, whatever comes after them (`lines_append`).
-/

namespace KeypadCalculator.Program

/-! ## Cutting at newlines -/

section Cut

variable {α : Type} [DecidableEq α] {newline : α} {line rest first second : List α}

/-- The lines of bytes or characters. The last line need not be ended. -/
def linesAt (newline : α) (input : List α) : List (List α) :=
  let pieces := input.splitOn newline
  if pieces.getLast? = some [] then pieces.dropLast else pieces

theorem linesAt_nil (newline : α) : linesAt newline [] = [] :=
  rfl

/-- What has no newline is one line. -/
theorem linesAt_of_not_mem (hne : line ≠ []) (h : newline ∉ line) :
    linesAt newline line = [line] := by
  rw [linesAt, List.splitOn_eq_singleton h]
  exact if_neg (by simpa using hne)

/-- A newline ends a line. -/
theorem linesAt_append_cons (h : newline ∉ line) (rest : List α) :
    linesAt newline (line ++ newline :: rest) = line :: linesAt newline rest := by
  have hlast : (line :: rest.splitOn newline).getLast? = (rest.splitOn newline).getLast? :=
    List.getLast?_cons_of_ne_nil (List.splitOn_ne_nil newline rest)
  rw [linesAt, linesAt, List.splitOn_append_cons_self_of_not_mem h, hlast]
  split
  · rw [List.dropLast_cons_of_ne_nil (List.splitOn_ne_nil newline rest)]
  · rfl

/-- Induction along the lines. -/
theorem linesAt_induction {motive : List α → Prop} (newline : α) (nil : motive [])
    (last : ∀ line, line ≠ [] → newline ∉ line → motive line)
    (ended : ∀ line rest, newline ∉ line → motive rest → motive (line ++ newline :: rest))
    (input : List α) : motive input := by
  induction hlength : input.length using Nat.strongRecOn generalizing input with
  | ind n ih =>
    by_cases hmem : newline ∈ input
    · obtain ⟨line, rest, rfl, hline⟩ := List.eq_append_cons_of_mem hmem
      refine ended line rest hline (ih rest.length ?_ rest rfl)
      rw [← hlength, List.length_append, List.length_cons]
      omega
    · cases input with
      | nil => exact nil
      | cons c rest => exact last (c :: rest) (List.cons_ne_nil c rest) hmem

/-- Lines that are ended stay what they are when more follows. -/
theorem linesAt_append (h : first = [] ∨ first.getLast? = some newline) (second : List α) :
    linesAt newline (first ++ second) = linesAt newline first ++ linesAt newline second := by
  induction first using linesAt_induction newline with
  | nil => rfl
  | last line hne hline =>
    rcases h with rfl | h
    · exact absurd rfl hne
    · exact absurd (List.mem_of_getLast? h) hline
  | ended line rest hline ih =>
    have hrest : rest = [] ∨ rest.getLast? = some newline := by
      by_cases hnil : rest = []
      · exact .inl hnil
      · right
        have hlast := h.resolve_left (by simp)
        rwa [List.getLast?_append_of_ne_nil _ (by simp), List.getLast?_cons_of_ne_nil hnil]
          at hlast
    rw [List.append_assoc, List.cons_append, linesAt_append_cons hline,
      linesAt_append_cons hline, ih hrest, List.cons_append]

/-- Nothing is lost but the newlines. -/
theorem flatten_linesAt (newline : α) (input : List α) :
    (linesAt newline input).flatten = input.filter (· ≠ newline) := by
  have hkeep {line : List α} (h : newline ∉ line) : line.filter (· ≠ newline) = line := by
    rw [List.filter_eq_self]
    intro c hc
    exact decide_eq_true (ne_of_mem_of_not_mem hc h)
  induction input using linesAt_induction newline with
  | nil => rfl
  | last line hne hline => rw [linesAt_of_not_mem hne hline, List.flatten_singleton, hkeep hline]
  | ended line rest hline ih =>
    rw [linesAt_append_cons hline, List.flatten_cons, ih, List.filter_append, hkeep hline,
      List.filter_cons_of_neg (by simp)]

end Cut

/-- The lines of a text. -/
def textLines (text : List Char) : List (List Char) :=
  linesAt '\n' text

/-- Lines of bytes that are ended stay what they are when more bytes follow. -/
theorem lines_append {first : List UInt8} (h : first = [] ∨ first.getLast? = some 10)
    (second : List UInt8) : lines (first ++ second) = lines first ++ lines second :=
  linesAt_append h second

/-- **The bytes of a text are cut where the text is cut.** -/
theorem lines_encode_eq_map (text : List Char) :
    lines (encode text) = (textLines text).map encode := by
  show linesAt 10 (encode text) = (linesAt '\n' text).map encode
  induction text using linesAt_induction '\n' with
  | nil => rfl
  | last line hne hline =>
    rw [linesAt_of_not_mem hne hline, linesAt_of_not_mem (encode_ne_nil hne)
      (mt newline_mem_encode_iff.1 hline)]
    rfl
  | ended line rest hline ih =>
    have hbytes : encode (line ++ '\n' :: rest) = encode line ++ 10 :: encode rest :=
      encode_append line ('\n' :: rest)
    rw [hbytes, linesAt_append_cons (mt newline_mem_encode_iff.1 hline), ih,
      linesAt_append_cons hline, List.map_cons]

/-- A text without a newline is one line of input, with a newline behind it or not. -/
theorem lines_encode {line ending : List Char} (hne : line ≠ []) (hline : '\n' ∉ line)
    (hending : ending = [] ∨ ending = ['\n']) : lines (encode (line ++ ending)) = [encode line] := by
  have hlines : textLines (line ++ ending) = [line] := by
    rcases hending with rfl | rfl
    · rw [List.append_nil, textLines, linesAt_of_not_mem hne hline]
    · rw [textLines, linesAt_append_cons hline, linesAt_nil]
  rw [lines_encode_eq_map, hlines, List.map_singleton]

/-- The bytes from which a text is read are those of the text. -/
theorem eq_encode_of_decode? {bytes : List UInt8} {text : List Char}
    (h : decode? bytes = some text) : bytes = encode text := by
  obtain ⟨s, hs, rfl⟩ := Option.map_eq_some_iff.1 h
  have hbytes : s.toByteArray = ⟨bytes.toArray⟩ := by
    unfold String.fromUTF8? at hs
    split at hs
    · obtain rfl := Option.some.inj hs
      rfl
    · cases hs
  have hencode : s.toByteArray = (encode s.toList).toByteArray := by
    conv_lhs => rw [← String.ofList_toList (s := s), String.toByteArray_ofList]
    rfl
  have hdata := congrArg ByteArray.data (hbytes.symm.trans hencode)
  rw [List.data_toByteArray] at hdata
  exact congrArg Array.toList hdata

/-! ## Cutting at blanks -/

/-- Nothing is lost by a split but what it splits at. -/
theorem flatten_splitOnP {α : Type} (p : α → Bool) (input : List α) :
    (input.splitOnP p).flatten = input.filter (!p ·) := by
  induction input with
  | nil => rfl
  | cons c rest ih =>
    rw [List.splitOnP_cons_eq_if_modifyHead]
    by_cases hc : p c = true
    · rw [if_pos hc, List.filter_cons_of_neg (by simp [hc])]
      exact ih
    · obtain ⟨piece, pieces, hpieces⟩ := List.exists_cons_of_ne_nil (List.splitOnP_ne_nil p rest)
      rw [if_neg hc, List.filter_cons_of_pos (by simpa using hc), ← ih, hpieces]
      rfl

/-- The words of a text are its characters without the blanks. -/
theorem flatten_words (text : List Char) :
    (words text).flatten = text.filter fun c => !Text.isBlank c := by
  rw [words, List.flatten_filter_not_isEmpty, flatten_splitOnP]

/-- A newline ends a word. -/
theorem words_append_cons_newline (line rest : List Char) :
    words (line ++ '\n' :: rest) = words line ++ words rest := by
  rw [words, List.splitOnP_append_cons _ _ (by decide), List.filter_append]
  rfl

/-- **The words of a text are those of its lines.** -/
theorem words_eq_flatMap_textLines (text : List Char) :
    words text = (textLines text).flatMap words := by
  show words text = (linesAt '\n' text).flatMap words
  induction text using linesAt_induction '\n' with
  | nil => rfl
  | last line hne hline => rw [linesAt_of_not_mem hne hline, List.flatMap_singleton]
  | ended line rest hline ih =>
    rw [words_append_cons_newline, ih, linesAt_append_cons hline, List.flatMap_cons]

end KeypadCalculator.Program
