import KeypadCalculator.Proofs.Keypad.Continuing
import KeypadCalculator.Proofs.Keypad.Failures

/-!
# Typing a text as it is

A word that is no name is taken character by character (`ofWord_eq_filterMap`). So a text of the
keypad is typed as it stands, and when each of its characters fits behind those before it, nothing
is left out, replaced or added: the line is that text (`run_ofWord`).
-/

namespace KeypadCalculator

variable {text word : List Char} {c : Char}

/-! ## Words -/

namespace Press

/-- The names of more than one character. -/
def longNames : List String :=
  ["Enter", "Backspace", "Delete", "Escape", "clear", "back", "equals"]

theorem ofList_ne_of_length_ne {name : String} (h : name.toList.length ≠ word.length) :
    String.ofList word ≠ name := by
  rintro rfl
  exact h (congrArg List.length String.toList_ofList)

/-- A word of more than one character is a press only if it is one of the long names. -/
theorem ofName?_eq_none (hlength : 2 ≤ word.length) (h : String.ofList word ∉ longNames) :
    ofName? (String.ofList word) = none := by
  have hshort {name : String} (hname : name.toList.length = 1) : String.ofList word ≠ name :=
    ofList_ne_of_length_ne (by omega)
  have hchar : ofChar? (String.ofList word) = none := by
    unfold ofChar?
    rw [String.toList_ofList]
    split
    · simp at hlength
    · rfl
  simp only [longNames, List.mem_cons, List.not_mem_nil, or_false, not_or] at h
  obtain ⟨henter, hbackspace, hdelete, hescape, hclear, hback, hequals⟩ := h
  have hkey : ofKey? (String.ofList word) = none := by
    rw [ofKey?, if_neg (not_or.2 ⟨henter, hshort rfl⟩), if_neg hbackspace,
      if_neg (not_or.2 ⟨hdelete, hescape⟩), hchar]
  have haction : ofAction? (String.ofList word) = none := by
    rw [ofAction?, if_neg hclear, if_neg hback, if_neg hequals]
  have hlabel : ofLabel? (String.ofList word) = none := by
    rw [ofLabel?, if_neg (hshort rfl), if_neg (hshort rfl), if_neg (hshort rfl), hchar]
  rw [ofName?, hkey, haction, hlabel]
  rfl

/-- **A word that is no name is taken character by character.** -/
theorem ofWord_eq_filterMap (h : String.ofList word ∉ longNames) :
    ofWord word = word.filterMap fun c => ofName? (String.ofList [c]) := by
  unfold ofWord
  match word with
  | [] => rfl
  | [c] =>
    rw [List.filterMap_cons, List.filterMap_nil]
    cases ofName? (String.ofList [c]) with
    | none => rfl
    | some press => rfl
  | c :: d :: rest => rw [ofName?_eq_none (by simp) h]

/-- Every character of the keypad is the name of the press that types it. -/
theorem ofName?_of_isKeypadChar (h : isKeypadChar c = true) :
    ofName? (String.ofList [c]) = some (.char c) := by
  have hlong {name : String} (hname : name.toList.length ≠ 1) : String.ofList [c] ≠ name :=
    ofList_ne_of_length_ne hname
  have hequals : String.ofList [c] ≠ "=" := by
    intro heq
    obtain rfl : c = '=' := List.singleton_inj.1 (String.ofList_injective heq)
    cases h
  have hchar : ofChar? (String.ofList [c]) = some (.char c) := by
    unfold ofChar?
    rw [String.toList_ofList]
    exact if_pos h
  have hkey : ofKey? (String.ofList [c]) = some (.char c) := by
    rw [ofKey?, if_neg (not_or.2 ⟨hlong (by decide), hequals⟩), if_neg (hlong (by decide)),
      if_neg (not_or.2 ⟨hlong (by decide), hlong (by decide)⟩), hchar]
  rw [ofName?, hkey, Option.some_or]

/-- No long name can be typed: each has an `e` or a `c`. -/
theorem not_mem_longNames (h : ∀ c ∈ word, isKeypadChar c = true ∨ c = '=') :
    String.ofList word ∉ longNames := by
  have hletter : ∀ name ∈ longNames, 'e' ∈ name.toList ∨ 'c' ∈ name.toList := by decide
  intro hmem
  have hword := hletter _ hmem
  rw [String.toList_ofList] at hword
  rcases hword with hc | hc
  · exact absurd (h 'e' hc) (by decide)
  · exact absurd (h 'c' hc) (by decide)

/-- A word of the keypad stands for its characters, and an equals sign at its end for an equals. -/
theorem ofWord_of_isKeypadChar (h : ∀ c ∈ word, isKeypadChar c = true) :
    ofWord word = word.map .char ∧ ofWord (word ++ ['=']) = word.map .char ++ [.equals] := by
  have hchars : (word.filterMap fun c => ofName? (String.ofList [c])) = word.map .char := by
    rw [← List.filterMap_eq_map]
    exact List.filterMap_congr fun c hc => ofName?_of_isKeypadChar (h c hc)
  constructor
  · rw [ofWord_eq_filterMap (not_mem_longNames fun c hc => .inl (h c hc)), hchars]
  · rw [ofWord_eq_filterMap, List.filterMap_append, hchars]
    · rfl
    · apply not_mem_longNames
      intro c hc
      exact (List.mem_append.1 hc).imp (h c) List.mem_singleton.1

end Press

/-! ## Texts that can be typed -/

namespace Entry

/-- The texts that can be typed as they are: they consist of characters of the keypad, begin with no
operator but a minus, and their operators and numbers are in shape. -/
structure IsTypable (text : List Char) : Prop where
  nonempty : text ≠ []
  characters : ∀ c ∈ text,
    c.isDigit = true ∨ c ∈ ['+', '-', '*', '/', '%', '.', '(', ')']
  /-- An operator at the beginning is a minus. -/
  first : ∀ op ∈ ['+', '-', '*', '/', '%'], text.head? = some op → op = '-'
  /-- No two operators are next to each other. -/
  apart : ∀ a ∈ ['+', '-', '*', '/', '%'], ∀ b ∈ ['+', '-', '*', '/', '%'], ¬ [a, b] <:+: text
  /-- Between operators and parentheses there is at most one point, which is not the first
  character, and no two zeros are the first two. -/
  segments : ∀ segment ∈ text.splitOnP (fun c => decide (c ∈ ['+', '-', '*', '/', '%', '(', ')'])),
    segment.count '.' ≤ 1 ∧ segment.head? ≠ some '.' ∧ ¬ ['0', '0'] <+: segment

-- a statement about the characters of a text is decided by going through the text
attribute [local instance (high)] List.decidableBAll

instance (text : List Char) : Decidable (IsTypable text) :=
  decidable_of_iff (text ≠ [] ∧
      (∀ c ∈ text, c.isDigit = true ∨ c ∈ ['+', '-', '*', '/', '%', '.', '(', ')']) ∧
      (∀ op ∈ ['+', '-', '*', '/', '%'], text.head? = some op → op = '-') ∧
      (∀ a ∈ ['+', '-', '*', '/', '%'], ∀ b ∈ ['+', '-', '*', '/', '%'], ¬ [a, b] <:+: text) ∧
      ∀ segment ∈ text.splitOnP (fun c => decide (c ∈ ['+', '-', '*', '/', '%', '(', ')'])),
        segment.count '.' ≤ 1 ∧ segment.head? ≠ some '.' ∧ ¬ ['0', '0'] <+: segment)
    ⟨fun ⟨hnonempty, hcharacters, hfirst, hapart, hsegments⟩ =>
      ⟨hnonempty, hcharacters, hfirst, hapart, hsegments⟩,
    fun ⟨hnonempty, hcharacters, hfirst, hapart, hsegments⟩ =>
      ⟨hnonempty, hcharacters, hfirst, hapart, hsegments⟩⟩

theorem isKeypadChar_iff : Press.isKeypadChar c = true ↔
    c.isDigit = true ∨ c ∈ ['+', '-', '*', '/', '%', '.', '(', ')'] := by
  rw [Press.isKeypadChar]
  simp only [Bool.or_eq_true, Operator.isSymbol_iff_mem, beq_iff_eq, List.mem_cons, List.not_mem_nil,
    or_false, or_assoc]

theorem IsTypable.isKeypadChar (h : IsTypable text) (hc : c ∈ text) :
    Press.isKeypadChar c = true :=
  isKeypadChar_iff.2 (h.characters c hc)

theorem IsTypable.inShape (h : IsTypable text) : InShape text where
  apart a b hpair hsymbols :=
    h.apart a (Operator.isSymbol_iff_mem.1 hsymbols.1) b (Operator.isSymbol_iff_mem.1 hsymbols.2)
      hpair
  segments segment hsegment := by
    rw [isBreak_eq_decide_mem] at hsegment
    obtain ⟨hpoints, hhead, hzeros⟩ := h.segments segment hsegment
    exact ⟨hpoints, hhead, hzeros⟩

end Entry

namespace Panel

open Entry (IsTypable)

/-- **A text that can be typed is typed as it is.** -/
theorem entry_run_chars (h : IsTypable text) :
    (Panel.run {} (text.map .char)).entry = { text } := by
  have hfirst : ∀ c ∈ text.head?, Operator.isSymbol c = true → c = '-' :=
    fun c hc hsymbol => h.first c (Operator.isSymbol_iff_mem.1 hsymbol) hc
  exact run_chars rfl (fun _ => hfirst) h.inShape

theorem entry_run_ofWord (h : IsTypable text) :
    (Panel.run {} (Press.ofWord text)).entry = { text } := by
  rw [(Press.ofWord_of_isKeypadChar fun c hc => h.isKeypadChar hc).1, entry_run_chars h]

/-- An equals behind it evaluates the text that was typed. -/
theorem display_run_ofWord_equals (h : IsTypable text) :
    (Panel.run {} (Press.ofWord (text ++ ['=']))).display = match Evaluation.evaluate text with
      | .ok v => .text (NumberFormat.result.write v)
      | .error _ => .error := by
  have hexpression : (Panel.run {} (text.map .char)).expression = text := by
    rw [expression, entry_run_chars h, if_neg]
    simpa using h.nonempty
  have hdisplay := display_equals (Panel.run {} (text.map .char))
  rw [hexpression] at hdisplay
  rw [(Press.ofWord_of_isKeypadChar fun c hc => h.isKeypadChar hc).2, run_concat]
  exact hdisplay

end Panel
end KeypadCalculator
