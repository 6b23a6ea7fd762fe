import KeypadCalculator.Proofs.Lexer.Recovery

/-!
# Blanks between tokens

A blank put into a text where it cuts no run of digits and points does not change how the text is
read (`readsAsFar_insert_blank`). It brings out what is held back, which the next character would
have brought out anyway; and where the next character would have brought an error instead, because
it repeats a sign or begins no token, the blank only lets the lexer get further before that.
-/

namespace KeypadCalculator

open Numeral (isNumeralChar)

/-- The two parts of a text do not cut a run of digits and points: the last character of the first
and the first one of the second are not both a digit or point. -/
def CutsNoRun (first second : List Char) : Prop :=
  ¬ (first.getLast?.any isNumeralChar = true ∧ second.head?.any isNumeralChar = true)

instance (first second : List Char) : Decidable (CutsNoRun first second) :=
  inferInstanceAs (Decidable (¬ _))

theorem CutsNoRun.of_cons {c : Char} {first second : List Char}
    (h : CutsNoRun (c :: first) second) : CutsNoRun first second := by
  rintro ⟨hlast, hhead⟩
  refine h ⟨?_, hhead⟩
  obtain ⟨d, hd, hn⟩ := (Option.any_eq_true ..).1 hlast
  rw [List.getLast?_cons, hd]
  exact hn

namespace Lexer

variable {lexer next : Lexer} {b c : Char} {first second text : List Char}
  {scanned other : List Token × Option LexicalError}

/-! ## Getting as far -/

/-- `ReadsAsFar scanned other` says that the other scan yields the tokens of this one at least, and
that it is the same if this one ended without an error. -/
def ReadsAsFar (scanned other : List Token × Option LexicalError) : Prop :=
  scanned.1 <+: other.1 ∧ (scanned.2 = none → other = scanned)

theorem ReadsAsFar.refl (scanned : List Token × Option LexicalError) : ReadsAsFar scanned scanned :=
  ⟨List.prefix_rfl, fun _ => rfl⟩

theorem readsAsFar_of_error (e : LexicalError) (other : List Token × Option LexicalError) :
    ReadsAsFar ([], some e) other :=
  ⟨List.nil_prefix, fun h => (nomatch h)⟩

theorem ReadsAsFar.append_left (h : ReadsAsFar scanned other) (tokens : List Token) :
    ReadsAsFar (tokens ++ scanned.1, scanned.2) (tokens ++ other.1, other.2) :=
  ⟨(List.prefix_append_right_inj tokens).2 h.1, fun hnone => by rw [h.2 hnone]⟩

/-! ## What a blank brings out -/

theorem endsBefore_of_isBlank (lexer : Lexer) (hb : Text.isBlank b = true) :
    lexer.EndsBefore b := by
  constructor
  · unfold doubledSign?
    split
    · exact absurd hb (by decide)
    · exact absurd hb (by decide)
    · rfl
  · intro text _
    exact Bool.eq_false_iff.2 fun hn =>
      Bool.false_ne_true ((Lexeme.isBlank_of_isNumeralChar hn).symm.trans hb)

theorem start_of_isBlank (hb : Text.isBlank b = true) : start b = .ok ready := by
  have hn := (endsBefore_of_isBlank (numeral []) hb).2 [] rfl
  rw [start, if_neg (by simp [hn]), if_pos hb]

/-- Where what is held back ends, reading from the start after it gets as far. -/
theorem readsAsFar_of_endsBefore (h : ∀ d ∈ text.head?, lexer.EndsBefore d) :
    ReadsAsFar (lexer.scan text) (match lexer.release with
      | .error e => ([], some e)
      | .ok token => (token.toList ++ (ready.scan text).1, (ready.scan text).2)) := by
  cases text with
  | nil =>
    rw [scan]
    cases lexer.release with
    | error e => exact .refl _
    | ok token =>
      show ReadsAsFar (token.toList, none) (token.toList ++ [], none)
      rw [List.append_nil]
      exact .refl _
  | cons d rest =>
    rw [scan_cons_of_endsBefore (h d rfl), scan_cons_of_endsBefore (endsBefore_ready d)]
    cases lexer.release with
    | error e => exact .refl _
    | ok token =>
      cases start d with
      | error e => exact readsAsFar_of_error e _
      | ok next => exact .refl _

/-- With a blank before it a text is read as far, unless it goes on with a numeral held back. -/
theorem readsAsFar_blank_cons (hb : Text.isBlank b = true)
    (h : ∀ run, lexer = numeral run → ∀ d ∈ text.head?, isNumeralChar d = false) :
    ReadsAsFar (lexer.scan text) (lexer.scan (b :: text)) := by
  by_cases hends : ∀ d ∈ text.head?, lexer.EndsBefore d
  · have hfar := readsAsFar_of_endsBefore hends
    rw [scan_cons_of_endsBefore (endsBefore_of_isBlank lexer hb), start_of_isBlank hb]
    cases hrelease : lexer.release with
    | error e => rwa [hrelease] at hfar
    | ok token => rwa [hrelease] at hfar
  · -- the text repeats a sign, which the blank keeps apart
    simp only [not_forall] at hends
    obtain ⟨d, hd, hends⟩ := hends
    obtain ⟨rest, rfl⟩ := List.head?_eq_some_iff.1 hd
    have hdoubled : lexer.doubledSign? d ≠ none :=
      fun hnone => hends ⟨hnone, fun run hrun => h run hrun d hd⟩
    obtain ⟨op, hop⟩ := Option.ne_none_iff_exists'.1 hdoubled
    have hfeed : lexer.feed d = (ready, .error (.doubledSign op)) := by
      unfold feed
      rw [hop]
    rw [scan_cons_of_error hfeed]
    exact readsAsFar_of_error (.doubledSign op) _

/-! ## A blank within a text -/

/-- A numeral is held back only behind a digit or point. -/
theorem isNumeralChar_of_feeds {answer : Answer} (h : Feeds lexer c (numeral text) answer) :
    isNumeralChar c = true := by
  cases h with
  | grows hc => exact hc
  | begins hrelease hstart =>
    rcases holds_of_start hstart with hready | hholds
    · cases hready
    · cases hholds with
      | numeral hne hall => exact hall c (List.mem_singleton_self c)

/-- **A blank that cuts no run gets the lexer as far.** The induction is on the part before the
blank, with the lexer in any state; one that holds a numeral back at the blank got it from that
part. -/
theorem readsAsFar_insert_blank (hb : Text.isBlank b = true) (hcut : CutsNoRun first second)
    (hstart : first = [] → ∀ run, lexer = numeral run →
      ∀ d ∈ second.head?, isNumeralChar d = false) :
    ReadsAsFar (lexer.scan (first ++ second)) (lexer.scan (first ++ b :: second)) := by
  induction first generalizing lexer with
  | nil => exact readsAsFar_blank_cons hb (hstart rfl)
  | cons c rest ih =>
    have hfeeds := feeds_feed lexer c
    rw [List.cons_append, List.cons_append]
    cases hfeed : lexer.feed c with
    | mk next answer =>
      rw [hfeed] at hfeeds
      cases answer with
      | error e =>
        rw [scan_cons_of_error hfeed, scan_cons_of_error hfeed]
        exact .refl _
      | ok token =>
        rw [scan_cons_of_feed hfeed, scan_cons_of_feed hfeed]
        refine (ih hcut.of_cons ?_).append_left token.toList
        rintro rfl run rfl d hd
        have hc := isNumeralChar_of_feeds hfeeds
        exact Bool.eq_false_iff.2 fun hn => hcut ⟨hc, (Option.any_eq_true ..).2 ⟨d, hd, hn⟩⟩

end Lexer
end KeypadCalculator
