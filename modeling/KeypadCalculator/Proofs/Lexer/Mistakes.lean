import KeypadCalculator.Proofs.Lexer.Scan

/-!
# Mistakes that a lexer reports

The error with which a scan ends is a mistake that the text has (`mistake_of_scan`): a character
that belongs to no token, a longest run of digits and points that is no numeral, or a sign
directly after the same sign.
-/

namespace KeypadCalculator

open Numeral (isNumeralChar)
open Lexeme (Leads)

namespace Lexer

variable {lexer : Lexer} {c : Char} {text rest : List Char} {e : LexicalError}

/-- `Mistake text e` says that the text has the mistake that `e` reports. -/
inductive Mistake : List Char → LexicalError → Prop
  /-- A character that is in no numeral, is not blank, and is no token. -/
  | unexpected {text : List Char} {c : Char} (hmem : c ∈ text) (hn : isNumeralChar c = false)
      (hb : Text.isBlank c = false) (ht : Token.ofChar? c = none) : Mistake text (.unexpected c)
  /-- A longest run of digits and points that is no numeral. -/
  | badNumeral {text run : List Char} (hmem : run ∈ Lexeme.numeralRuns text)
      (hrun : Numeral.isNumeral run = false) : Mistake text (.badNumeral run)
  /-- A plus or minus directly after itself. -/
  | doubledSign {text : List Char} {op : Operator} (hop : op = .add ∨ op = .sub)
      (hpair : [op.symbol, op.symbol] <:+: text) : Mistake text (.doubledSign op)

/-! ## Mistakes after the first character or lexeme -/

theorem Mistake.cons (hn : isNumeralChar c = false) (h : Mistake rest e) :
    Mistake (c :: rest) e := by
  cases h with
  | unexpected hmem hd hb ht => exact .unexpected (List.mem_cons_of_mem _ hmem) hd hb ht
  | badNumeral hmem hrun => exact .badNumeral (by rwa [Lexeme.numeralRuns_cons hn]) hrun
  | doubledSign hop hpair => exact .doubledSign hop (List.infix_cons hpair)

theorem Mistake.append (hl : Leads text rest) (h : Mistake rest e) : Mistake (text ++ rest) e := by
  cases hl with
  | run hc hrun hrest =>
    cases h with
    | unexpected hmem hd hb ht => exact .unexpected (List.mem_append_right _ hmem) hd hb ht
    | badNumeral hmem hbad =>
      refine .badNumeral ?_ hbad
      rw [Lexeme.numeralRuns_append hc hrun hrest]
      exact List.mem_cons_of_mem _ hmem
    | doubledSign hop hpair => exact .doubledSign hop (hpair.trans (List.suffix_append _ _).isInfix)
  | single hn hb => exact h.cons hn

/-! ## Where a scan ends -/

/-- When what is held back ends before a text, it goes wrong itself, or the text goes wrong as it
does from the start. -/
theorem snd_scan_of_endsBefore (h : ∀ c ∈ text.head?, lexer.EndsBefore c) :
    (lexer.scan text).2 = match lexer.release with
      | .error e => some e
      | .ok _ => (ready.scan text).2 := by
  cases text with
  | nil =>
    rw [scan]
    cases lexer.release with
    | error e => rfl
    | ok token => rfl
  | cons c rest =>
    rw [scan_cons_of_endsBefore (h c rfl), scan_cons_of_endsBefore (endsBefore_ready c)]
    cases lexer.release with
    | error e => rfl
    | ok token =>
      cases start c with
      | error e => rfl
      | ok next => rfl

/-- A run that is no numeral is reported; otherwise a mistake comes after it. -/
theorem mistake_of_scan_run {run : List Char} (hc : isNumeralChar c = true)
    (hrun : ∀ d ∈ run, isNumeralChar d = true) (hrest : ∀ d ∈ rest.head?, isNumeralChar d = false)
    (ih : (ready.scan rest).2 = some e → Mistake rest e)
    (h : (ready.scan (c :: run ++ rest)).2 = some e) : Mistake (c :: run ++ rest) e := by
  have habs : Absorbs ready (c :: run) (numeral (c :: run)) :=
    .cons (feed_ready_of_numeral hc) (absorbs_numeral [c] hrun)
  rw [habs.scan_append,
    snd_scan_of_endsBefore fun d hd => endsBefore_numeral (c :: run) (hrest d hd), release] at h
  cases hread : Numeral.read? (c :: run) with
  | some v =>
    rw [hread] at h
    exact (ih h).append (.run hc hrun hrest)
  | none =>
    rw [hread] at h
    obtain rfl := Option.some.inj h
    refine .badNumeral ?_ ?_
    · rw [Lexeme.numeralRuns_append hc hrun hrest]
      exact List.mem_cons_self ..
    · by_contra hnumeral
      rw [Numeral.read?, if_pos (by simpa using hnumeral)] at hread
      cases hread

/-- The second of two equal signs is answered with an error. -/
theorem scan_of_repeatsSign (h : Lexeme.RepeatsSign [c] rest) : ∃ op : Operator,
    (op = .add ∨ op = .sub) ∧ [op.symbol, op.symbol] <:+: c :: rest ∧
      (ready.scan (c :: rest)).2 = some (.doubledSign op) := by
  rw [Lexeme.repeatsSign_singleton_iff] at h
  rcases h with ⟨rfl, hd⟩ | ⟨rfl, hd⟩
  · obtain ⟨tail, rfl⟩ := List.head?_eq_some_iff.1 hd
    exact ⟨.add, .inl rfl, (List.prefix_append ['+', '+'] tail).isInfix, rfl⟩
  · obtain ⟨tail, rfl⟩ := List.head?_eq_some_iff.1 hd
    exact ⟨.sub, .inr rfl, (List.prefix_append ['-', '-'] tail).isInfix, rfl⟩

/-- A character that is no token or is a repeated sign is reported; otherwise a mistake comes after
it. -/
theorem mistake_of_scan_single (hn : isNumeralChar c = false) (hb : Text.isBlank c = false)
    (ih : (ready.scan rest).2 = some e → Mistake rest e)
    (h : (ready.scan (c :: rest)).2 = some e) : Mistake (c :: rest) e := by
  have hfeed := feed_ready_of_single hn hb
  cases ht : Token.ofChar? c with
  | none =>
    rw [ht] at hfeed
    rw [scan_cons_of_error hfeed] at h
    obtain rfl := Option.some.inj h
    exact .unexpected (List.mem_cons_self ..) hn hb ht
  | some token =>
    by_cases hsign : Lexeme.RepeatsSign [c] rest
    · obtain ⟨op, hop, hpair, hscan⟩ := scan_of_repeatsSign hsign
      rw [hscan] at h
      obtain rfl := Option.some.inj h
      exact .doubledSign hop hpair
    · rw [ht] at hfeed
      have hends : ∀ d ∈ rest.head?, (held token).EndsBefore d := by
        intro d hd
        rw [endsBefore_held_iff ht]
        rw [Lexeme.repeatsSign_singleton_iff, Option.mem_def.1 hd] at hsign
        simpa using hsign
      rw [scan_cons_of_feed hfeed, snd_scan_of_endsBefore hends] at h
      exact (ih h).cons hn

/-- **A scan ends with a mistake that the text has.** -/
theorem mistake_of_scan (h : (ready.scan text).2 = some e) : Mistake text e := by
  induction text using Lexeme.text_induction with
  | nil => cases h
  | blank c rest hn hb ih =>
    rw [scan_cons_of_feed (feed_ready_of_blank hn hb)] at h
    exact (ih h).cons hn
  | lexeme text rest hl ih =>
    cases hl with
    | run hc hrun hrest => exact mistake_of_scan_run hc hrun hrest ih h
    | single hn hb => exact mistake_of_scan_single hn hb ih h

end Lexer
end KeypadCalculator
