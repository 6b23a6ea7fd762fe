import KeypadCalculator.Proofs.Keypad.LastPress
import KeypadCalculator.Proofs.Keypad.Shape
import Mathlib.Data.List.DropRight

/-!
# Putting a character at the end of the line

A character is put at the end of the line in full, or it is refused and the line stays as it was
(`append_all_or_nothing`). A result may be cleared before the character is looked at, but then it is
not refused, because everything fits on an empty line (`rejection?_nil`); and where a result is not
cleared, the character is no point and no zero, so it is not refused either
(`rejection?_of_not_refuses`).

What a point and a zero have to fit is the number at the end of the line, which is what follows the
last operator or parenthesis (`trailingSegment_eq_iff`).
-/

namespace KeypadCalculator
namespace Entry

variable {e : Entry} {text segment : List Char} {c : Char}

/-! ## The number at the end -/

/-- The trailing segment has no operator or parenthesis in it, and one of them or nothing at all
before it. -/
theorem trailingSegment_eq_iff : trailingSegment text = segment ↔ ∃ before,
    text = before ++ segment ∧ (∀ d ∈ segment, isBreak d = false) ∧
      ∀ d ∈ before.getLast?, isBreak d = true := by
  constructor
  · rintro rfl
    refine ⟨text.rdropWhile fun d => !isBreak d, ?_, ?_, ?_⟩
    · exact (List.rdropWhile_append_rtakeWhile ..).symm
    · intro d hd
      simpa using List.mem_rtakeWhile_imp hd
    · intro d hd
      obtain ⟨hne, rfl⟩ := List.mem_getLast?_eq_getLast hd
      simpa using List.rdropWhile_last_not _ _ hne
  · rintro ⟨before, rfl, hsegment, hbefore⟩
    have hnil : trailingSegment before = [] := by
      cases before using List.reverseRecOn with
      | nil => rfl
      | append_singleton before d =>
        exact trailingSegment_concat_break (hbefore d List.getLast?_concat)
    rw [trailingSegment_append hsegment, hnil, List.nil_append]

/-! ## What is put behind the text -/

/-- The character starts a new line in place of a result. -/
def Starts (e : Entry) (c : Char) : Prop :=
  e.isResult = true ∧ (c.isDigit = true ∨ c = '.')

/-- The line is no result, and the character would be a second point of the number at its end, or a
zero behind a number that is a lone zero. -/
def Refuses (e : Entry) (c : Char) : Prop :=
  e.isResult = false ∧ ((c = '.' ∧ '.' ∈ trailingSegment e.text) ∨
    (c = '0' ∧ trailingSegment e.text = ['0']))

instance (e : Entry) (c : Char) : Decidable (Starts e c) :=
  inferInstanceAs (Decidable (_ ∧ _))

theorem extended_eq (text : List Char) (c : Char) : extended text c
    = text ++ (if c = '.' ∧ trailingSegment text = [] then ['0'] else []) ++ [c] := by
  unfold extended
  split
  · rw [List.append_assoc, List.singleton_append]
  · rw [List.append_nil]

theorem base_of_starts (h : Starts e c) : e.base c = {} := by
  rw [base, if_pos]
  simpa [Starts] using h

theorem base_of_not_starts (h : ¬ Starts e c) : e.base c = e := by
  rw [base, if_neg]
  simpa [Starts] using h

/-- Everything fits on an empty line. -/
theorem rejection?_nil (c : Char) : rejection? [] c = none := by
  rw [rejection?_eq_none_iff]
  exact ⟨fun _ => List.not_mem_nil, fun _ => (List.cons_ne_nil _ _).symm⟩

theorem Refuses.not_starts (h : Refuses e c) : ¬ Starts e c := by
  intro hstarts
  exact Bool.false_ne_true (h.1.symm.trans hstarts.1)

/-- What is refused is a second point or a second zero, and the reason tells which. -/
theorem rejection?_of_refuses (h : Refuses e c) :
    rejection? e.text c = some (if c = '.' then .secondPoint else .leadingZero) := by
  unfold rejection?
  rcases h with ⟨-, ⟨rfl, hmem⟩ | ⟨rfl, hlone⟩⟩
  · rw [if_pos ⟨rfl, hmem⟩]
    rfl
  · rw [if_neg (by simp), if_pos ⟨rfl, hlone⟩]
    rfl

/-- Nothing else is refused. -/
theorem rejection?_of_not_refuses (hstarts : ¬ Starts e c) (h : ¬ Refuses e c) :
    rejection? e.text c = none := by
  cases hrejection : rejection? e.text c with
  | none => rfl
  | some reason =>
    -- the line is no result, or the character would have started a new one
    have hc := isDigit_or_point_of_rejection? hrejection
    rw [Bool.or_eq_true, beq_iff_eq] at hc
    have hresult : e.isResult = false :=
      Bool.eq_false_iff.2 fun hresult => hstarts ⟨hresult, hc⟩
    have hfits : rejection? e.text c = none := rejection?_eq_none_iff.2
      ⟨fun hc hmem => h ⟨hresult, .inl ⟨hc, hmem⟩⟩, fun hc hlone => h ⟨hresult, .inr ⟨hc, hlone⟩⟩⟩
    rw [hrejection] at hfits
    cases hfits

theorem append_of_refuses (h : Refuses e c) :
    e.append c = (e, some (if c = '.' then .secondPoint else .leadingZero)) := by
  unfold append
  dsimp only
  rw [base_of_not_starts h.not_starts, rejection?_of_refuses h]

/-- What is not refused is put behind the text, or behind nothing in place of a result. -/
theorem append_of_not_refuses (h : ¬ Refuses e c) :
    e.append c = ({ text := extended (if Starts e c then [] else e.text) c }, none) := by
  unfold append
  dsimp only
  by_cases hstarts : Starts e c
  · rw [if_pos hstarts, base_of_starts hstarts, rejection?_nil]
  · rw [if_neg hstarts, base_of_not_starts hstarts, rejection?_of_not_refuses hstarts h]

/-! ## All together -/

/-- **A character is put at the end of the line, or the line stays as it was.** It is refused
exactly when the line is no result and it would be a second point, or a zero behind a lone zero, in
the number at the end; then text and flag are as before, and the reason tells which. Otherwise the
line is no result any more, and its text is the old one, or nothing if a digit or point takes the
place of a result, with the character behind it, and a zero before a point that would begin a
number. The number at the end is what stands behind the last operator or parenthesis. -/
theorem append_all_or_nothing (e : Entry) (c : Char) :
    ((∃ reason, (e.append c).2 = some reason) ↔ Refuses e c) ∧
    (Refuses e c → e.append c = (e, some (if c = '.' then .secondPoint else .leadingZero))) ∧
    (¬ Refuses e c →
      let kept := if Starts e c then [] else e.text
      (e.append c).1 = {
        text := kept ++ (if c = '.' ∧ trailingSegment kept = [] then ['0'] else []) ++ [c]
        isResult := false }) ∧
    ∀ text segment, trailingSegment text = segment ↔ ∃ before, text = before ++ segment ∧
      (∀ d ∈ segment, d ∉ ['+', '-', '*', '/', '%', '(', ')']) ∧
      ∀ d ∈ before.getLast?, d ∈ ['+', '-', '*', '/', '%', '(', ')'] := by
  refine ⟨?_, append_of_refuses, fun h => ?_, fun text segment => ?_⟩
  · constructor
    · rintro ⟨reason, hreason⟩
      by_contra h
      rw [append_of_not_refuses h] at hreason
      cases hreason
    · intro h
      rw [append_of_refuses h]
      exact ⟨_, rfl⟩
  · intro kept
    rw [append_of_not_refuses h, ← extended_eq]
  · rw [trailingSegment_eq_iff, isBreak_eq_decide_mem]
    simp only [decide_eq_false_iff_not, decide_eq_true_eq]

-- a point behind a result begins a number, and a point behind that number's point is refused
example : (ofResult "2.5".toList).append '.' = ({ text := "0.".toList }, none) := by decide
example : ({ text := "1+0.".toList } : Entry).append '.'
    = ({ text := "1+0.".toList }, some .secondPoint) := by
  decide

end Entry
end KeypadCalculator
