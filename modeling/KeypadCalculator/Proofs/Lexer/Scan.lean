import KeypadCalculator.Proofs.Lexer.Lexemes
import KeypadCalculator.Stepwise

/-!
# Reading a text character by character

A lexer that is fed a text one character at a time yields the tokens of its lexemes, each of them
with the first character after the lexeme.

* `Absorbs`: a lexer takes characters in and yields nothing yet, as it does with the characters of
  one lexeme (`exists_absorbs_of_leads`);
* `EndsBefore`: the next character is not part of what is held back, so that reading goes on as if
  nothing had been held (`scan_of_endsBefore`, `emitted_of_endsBefore`);
* `scan_iff` and `emitted_take` go through a text lexeme by lexeme.

`scan_eq_maximal_munch` is the result for whole texts and for their beginnings.
-/

namespace KeypadCalculator

open Numeral (isNumeralChar)
open Lexeme (Leads Readable RepeatsSign allFrom)

/-- A character stands for an operator token exactly when it is the symbol of the operator. -/
theorem Token.ofChar?_eq_operator_iff {c : Char} {op : Operator} :
    Token.ofChar? c = some (.operator op) ↔ c = op.symbol := by
  constructor
  · intro h
    unfold Token.ofChar? at h
    split at h
    · cases h
    · cases h
    · obtain ⟨found, hfound, heq⟩ := Option.map_eq_some_iff.1 h
      obtain rfl := Token.operator.inj heq
      exact Operator.ofChar?_eq_some_iff.1 hfound
  · intro h
    subst h
    cases op <;> rfl

namespace Lexer

variable {lexer next last : Lexer} {c : Char} {text rest : List Char} {tokens : List Token}

/-! ## Where what is held back ends -/

/-- What is held back ends before `c`: a numeral does not go on with it, and a sign is not repeated
by it. -/
def EndsBefore (lexer : Lexer) (c : Char) : Prop :=
  lexer.doubledSign? c = none ∧ ∀ text, lexer = .numeral text → isNumeralChar c = false

theorem endsBefore_numeral (text : List Char) (h : isNumeralChar c = false) :
    EndsBefore (numeral text) c :=
  ⟨rfl, fun _ _ => h⟩

/-- An operator or parenthesis ends before every character that does not repeat it as a sign. -/
theorem endsBefore_held_iff {d : Char} {token : Token} (ht : Token.ofChar? c = some token) :
    EndsBefore (held token) d ↔ ¬ ((c = '+' ∧ d = '+') ∨ (c = '-' ∧ d = '-')) := by
  have hplus : c = '+' ↔ token = .operator .add := by
    have h : Token.ofChar? c = some (.operator .add) ↔ c = '+' := Token.ofChar?_eq_operator_iff
    rw [← h, ht, Option.some.injEq]
  have hminus : c = '-' ↔ token = .operator .sub := by
    have h : Token.ofChar? c = some (.operator .sub) ↔ c = '-' := Token.ofChar?_eq_operator_iff
    rw [← h, ht, Option.some.injEq]
  rw [hplus, hminus]
  constructor
  · intro hends hsign
    have hd := hends.1
    rcases hsign with ⟨rfl, rfl⟩ | ⟨rfl, rfl⟩
    · cases hd
    · cases hd
  · intro h
    refine ⟨?_, fun _ hl => nomatch hl⟩
    unfold doubledSign?
    split
    · rename_i heq
      cases heq
      exact (h (.inl ⟨rfl, rfl⟩)).elim
    · rename_i heq
      cases heq
      exact (h (.inr ⟨rfl, rfl⟩)).elim
    · rfl

theorem endsBefore_ready (c : Char) : EndsBefore ready c :=
  ⟨rfl, fun _ hl => nomatch hl⟩

theorem feed_of_endsBefore (h : lexer.EndsBefore c) : lexer.feed c = lexer.advance c := by
  unfold feed
  rw [h.1]
  cases lexer with
  | ready => rfl
  | held token => rfl
  | numeral text => exact if_neg (by simp [h.2 text rfl])

theorem feed_numeral (text : List Char) (hc : isNumeralChar c = true) :
    (numeral text).feed c = (numeral (text ++ [c]), .ok none) :=
  if_pos hc

/-- From the start a character is answered with nothing, or with an error if it begins no token. -/
theorem feed_ready (c : Char) : ready.feed c = match start c with
    | .error e => (ready, .error e)
    | .ok next => (next, .ok none) := rfl

theorem feed_ready_of_numeral (hc : isNumeralChar c = true) :
    ready.feed c = (numeral [c], .ok none) := by
  rw [feed_ready, start, if_pos hc]

theorem feed_ready_of_blank (hn : isNumeralChar c = false) (hb : Text.isBlank c = true) :
    ready.feed c = (ready, .ok none) := by
  rw [feed_ready, start, if_neg (by simp [hn]), if_pos hb]

theorem feed_ready_of_single (hn : isNumeralChar c = false) (hb : Text.isBlank c = false) :
    ready.feed c = match Token.ofChar? c with
      | some token => (held token, .ok none)
      | none => (ready, .error (.unexpected c)) := by
  rw [feed_ready, start, if_neg (by simp [hn]), if_neg (by simp [hb])]
  cases Token.ofChar? c with
  | some token => rfl
  | none => rfl

/-- The characters of a readable text begin tokens or are blank. -/
theorem exists_start_of_readable (h : Readable (c :: rest)) : ∃ next, start c = .ok next := by
  unfold start
  split
  · exact ⟨_, rfl⟩
  · split
    · exact ⟨_, rfl⟩
    · rename_i hn hb
      have hsingle := ((h.characters c (List.mem_cons_self ..)).resolve_left hn).resolve_left hb
      obtain ⟨token, ht⟩ := Option.isSome_iff_exists.1 (Lexeme.isSome_single?_iff.2 hsingle)
      rw [← Lexeme.single?_eq_ofChar?, ht]
      exact ⟨_, rfl⟩

/-! ## Taking characters in -/

/-- `Absorbs lexer text last` says that the characters of the text are all answered with nothing, and
that `last` is what holds them at the end. -/
inductive Absorbs : Lexer → List Char → Lexer → Prop
  | nil (lexer : Lexer) : Absorbs lexer [] lexer
  | cons {lexer next last : Lexer} {c : Char} {rest : List Char}
      (hc : lexer.feed c = (next, .ok none)) (h : Absorbs next rest last) :
      Absorbs lexer (c :: rest) last

theorem Absorbs.take (h : Absorbs lexer text last) (n : Nat) :
    ∃ last, Absorbs lexer (text.take n) last := by
  induction h generalizing n with
  | nil lexer =>
    rw [List.take_nil]
    exact ⟨lexer, .nil lexer⟩
  | cons hc h ih =>
    cases n with
    | zero => exact ⟨_, .nil _⟩
    | succ n =>
      obtain ⟨last, hlast⟩ := ih n
      exact ⟨last, .cons hc hlast⟩

/-- A numeral takes in what goes on with it. -/
theorem absorbs_numeral (text : List Char) {run : List Char}
    (hrun : ∀ d ∈ run, isNumeralChar d = true) :
    Absorbs (numeral text) run (numeral (text ++ run)) := by
  induction run generalizing text with
  | nil =>
    rw [List.append_nil]
    exact .nil _
  | cons d run ih =>
    have := ih (text ++ [d]) fun e he => hrun e (List.mem_cons_of_mem _ he)
    rw [List.append_assoc, List.singleton_append] at this
    exact .cons (feed_numeral text (hrun d (List.mem_cons_self ..))) this

/-- **A lexeme is taken in as a whole.** At its end its token is held back, and ends before whatever
comes next. -/
theorem exists_absorbs_of_leads {token : Token} {stop : Nat} (h : Leads text rest)
    (ht : Lexeme.token? ⟨text, stop⟩ = some token) (hsign : ¬ RepeatsSign text rest) :
    ∃ last, Absorbs ready text last ∧ last.release = .ok (some token) ∧
      ∀ c ∈ rest.head?, last.EndsBefore c := by
  cases h with
  | @run c run rest hc hrun hrest =>
    refine ⟨numeral (c :: run), .cons (feed_ready_of_numeral hc) (absorbs_numeral [c] hrun), ?_, ?_⟩
    · rw [Lexeme.token?_run hc] at ht
      obtain ⟨v, hv, rfl⟩ := Option.map_eq_some_iff.1 ht
      rw [release, hv]
    · exact fun d hd => endsBefore_numeral (c :: run) (hrest d hd)
  | @single c rest hn hb =>
    rw [Lexeme.token?_single hn, Lexeme.single?_eq_ofChar?] at ht
    refine ⟨held token, .cons ?_ (.nil _), rfl, ?_⟩
    · rw [feed_ready_of_single hn hb, ht]
    · intro d hd
      rw [endsBefore_held_iff ht]
      rw [Lexeme.repeatsSign_singleton_iff, Option.mem_def.1 hd] at hsign
      simpa using hsign

/-! ## Whole texts -/

theorem scan_nil_iff : lexer.scan [] = (tokens, none)
    ↔ ∃ token, lexer.release = .ok token ∧ tokens = token.toList := by
  unfold scan
  cases lexer.release with
  | error e => simp
  | ok token => simp [eq_comm]

theorem scan_cons_of_feed {token : Option Token} (h : lexer.feed c = (next, .ok token))
    (rest : List Char) :
    lexer.scan (c :: rest) = (token.toList ++ (next.scan rest).1, (next.scan rest).2) := by
  rw [scan, h]

theorem scan_cons_of_error {e : LexicalError} (h : lexer.feed c = (next, .error e))
    (rest : List Char) : lexer.scan (c :: rest) = ([], some e) := by
  rw [scan, h]

theorem Absorbs.scan_append (h : Absorbs lexer text last) (rest : List Char) :
    lexer.scan (text ++ rest) = last.scan rest := by
  induction h with
  | nil lexer => rfl
  | cons hc h ih => rw [List.cons_append, scan_cons_of_feed hc, ih, Option.toList_none,
      List.nil_append]

/-- A character that what is held back does not go on with releases it and starts anew. If either
goes wrong, what was released is lost. -/
theorem scan_cons_of_endsBefore (h : lexer.EndsBefore c) (rest : List Char) :
    lexer.scan (c :: rest) = match lexer.release, start c with
      | .error e, _ => ([], some e)
      | .ok _, .error e => ([], some e)
      | .ok token, .ok next => (token.toList ++ (next.scan rest).1, (next.scan rest).2) := by
  rw [scan, feed_of_endsBefore h, advance]
  cases lexer.release with
  | error e => rfl
  | ok token =>
    cases start c with
    | error e => rfl
    | ok next => rfl

/-- What is held back comes out before a text that it does not go on with, which is then read from
the start. -/
theorem scan_of_endsBefore (h : ∀ c ∈ text.head?, lexer.EndsBefore c) :
    lexer.scan text = (tokens, none) ↔ ∃ token more, lexer.release = .ok token ∧
      ready.scan text = (more, none) ∧ tokens = token.toList ++ more := by
  cases text with
  | nil =>
    rw [scan_nil_iff]
    constructor
    · intro h
      rcases h with ⟨token, hr, rfl⟩
      exact ⟨token, [], hr, rfl, (List.append_nil _).symm⟩
    · intro h
      rcases h with ⟨token, more, hr, hmore, rfl⟩
      obtain ⟨rfl, -⟩ := Prod.mk.inj hmore
      exact ⟨token, hr, List.append_nil _⟩
  | cons c rest =>
    rw [scan_cons_of_endsBefore (h c rfl), scan_cons_of_endsBefore (endsBefore_ready c)]
    cases lexer.release with
    | error e => simp
    | ok token =>
      cases start c with
      | error e => simp [release]
      | ok next =>
        constructor
        · intro hscan
          obtain ⟨rfl, herror⟩ := Prod.mk.inj hscan
          exact ⟨token, (next.scan rest).1, rfl, congrArg (Prod.mk _) herror, rfl⟩
        · intro h
          rcases h with ⟨other, more, hother, hscan, rfl⟩
          obtain rfl := Except.ok.inj hother
          obtain ⟨rfl, herror⟩ := Prod.mk.inj hscan
          exact congrArg (Prod.mk _) herror

/-- If a text is read, its first lexeme makes a token and is no sign that is repeated. -/
theorem first_lexeme_of_scan (h : Leads text rest) (stop : Nat)
    (hscan : ready.scan (text ++ rest) = (tokens, none)) :
    (∃ token, Lexeme.token? ⟨text, stop⟩ = some token) ∧ ¬ RepeatsSign text rest := by
  cases h with
  | @run c run rest hc hrun hrest =>
    refine ⟨?_, Lexeme.not_repeatsSign_run hc⟩
    have habs : Absorbs ready (c :: run) (numeral (c :: run)) :=
      .cons (feed_ready_of_numeral hc) (absorbs_numeral [c] hrun)
    -- a run that is no numeral cannot be released
    rw [habs.scan_append,
      scan_of_endsBefore fun d hd => endsBefore_numeral (c :: run) (hrest d hd)] at hscan
    obtain ⟨token, more, hr, -, -⟩ := hscan
    rw [Lexeme.token?_run hc]
    cases hv : Numeral.read? (c :: run) with
    | some v => exact ⟨_, rfl⟩
    | none =>
      rw [release, hv] at hr
      cases hr
  | @single c rest hn hb =>
    constructor
    · rw [Lexeme.token?_single hn, Lexeme.single?_eq_ofChar?]
      cases ht : Token.ofChar? c with
      | some token => exact ⟨token, rfl⟩
      | none =>
        have hfeed := feed_ready_of_single hn hb
        rw [ht] at hfeed
        rw [List.singleton_append, scan_cons_of_error hfeed] at hscan
        cases hscan
    · -- the second of two signs is answered with an error
      rw [Lexeme.repeatsSign_singleton_iff]
      intro h
      rcases h with ⟨rfl, hd⟩ | ⟨rfl, hd⟩
      · obtain ⟨tail, rfl⟩ := List.head?_eq_some_iff.1 hd
        cases hscan
      · obtain ⟨tail, rfl⟩ := List.head?_eq_some_iff.1 hd
        cases hscan

/-- A text that begins with a lexeme is read when the lexeme makes a token, is no sign that is
repeated, and the rest is read; the token comes first. -/
theorem scan_append_iff (h : Leads text rest) (stop : Nat) :
    ready.scan (text ++ rest) = (tokens, none) ↔ ∃ token more,
      Lexeme.token? ⟨text, stop⟩ = some token ∧ ¬ RepeatsSign text rest ∧
        ready.scan rest = (more, none) ∧ tokens = token :: more := by
  constructor
  · intro hscan
    obtain ⟨⟨token, ht⟩, hsign⟩ := first_lexeme_of_scan h stop hscan
    obtain ⟨last, habs, hr, hends⟩ := exists_absorbs_of_leads h ht hsign
    rw [habs.scan_append, scan_of_endsBefore hends] at hscan
    obtain ⟨released, more, hreleased, hmore, rfl⟩ := hscan
    obtain rfl := Except.ok.inj (hr.symm.trans hreleased)
    exact ⟨token, more, ht, hsign, hmore, rfl⟩
  · intro h
    rcases h with ⟨token, more, ht, hsign, hmore, rfl⟩
    obtain ⟨last, habs, hr, hends⟩ := exists_absorbs_of_leads h ht hsign
    rw [habs.scan_append, scan_of_endsBefore hends]
    exact ⟨some token, more, hr, hmore, rfl⟩

/-- **The lexer reads the texts that can be read, and yields the tokens of their lexemes.** -/
theorem scan_iff (before : Nat) : ready.scan text = (tokens, none)
    ↔ Readable text ∧ tokens.map some = (allFrom before text).map Lexeme.token? := by
  induction text using Lexeme.text_induction generalizing before tokens with
  | nil =>
    rw [scan_nil_iff, Lexeme.allFrom_nil]
    simp [release, Lexeme.readable_nil]
  | blank c rest hn hb ih =>
    rw [scan_cons_of_feed (feed_ready_of_blank hn hb), Option.toList_none, List.nil_append,
      Lexeme.readable_blank hn hb, Lexeme.allFrom_blank hn hb]
    exact ih (before + 1)
  | lexeme text rest hl ih =>
    rw [scan_append_iff hl (before + text.length), Lexeme.readable_append hl (before + text.length),
      Lexeme.allFrom_append hl, List.map_cons]
    constructor
    · intro h
      rcases h with ⟨token, more, ht, hsign, hmore, rfl⟩
      obtain ⟨hreadable, htokens⟩ := (ih (before + text.length)).1 hmore
      exact ⟨⟨ht ▸ rfl, hsign, hreadable⟩, by rw [List.map_cons, ht, htokens]⟩
    · intro h
      rcases h with ⟨⟨-, hsign, hreadable⟩, htokens⟩
      cases tokens with
      | nil => cases htokens
      | cons token more =>
        obtain ⟨ht, hmore⟩ := List.cons.inj htokens
        exact ⟨token, more, ht.symm, hsign, (ih _).2 ⟨hreadable, hmore⟩, rfl⟩

/-! ## Beginnings of texts -/

/-- The tokens that come out while a text is fed. -/
def emitted (lexer : Lexer) (text : List Char) : List Token :=
  (Stepwise.answers feed lexer text).filterMap fun answer => answer.toOption.join

theorem emitted_cons_of_feed {token : Option Token} (h : lexer.feed c = (next, .ok token))
    (rest : List Char) : lexer.emitted (c :: rest) = token.toList ++ next.emitted rest := by
  rw [emitted, Stepwise.answers, h]
  cases token with
  | none => rfl
  | some token => rfl

theorem Absorbs.emitted_append (h : Absorbs lexer text last) (rest : List Char) :
    lexer.emitted (text ++ rest) = last.emitted rest := by
  induction h with
  | nil lexer => rfl
  | cons hc h ih => rw [List.cons_append, emitted_cons_of_feed hc, ih, Option.toList_none,
      List.nil_append]

/-- What is held back comes out with the first character that it does not go on with. -/
theorem emitted_of_endsBefore {token : Option Token} (h : lexer.EndsBefore c)
    (hr : lexer.release = .ok token) (hs : start c = .ok next) (rest : List Char) :
    lexer.emitted (c :: rest) = token.toList ++ ready.emitted (c :: rest) := by
  have hfeed : lexer.feed c = (next, .ok token) := by
    rw [feed_of_endsBefore h, advance, hr]
    simp only [hs]
  have hready : ready.feed c = (next, .ok none) := by rw [feed_ready, hs]
  rw [emitted_cons_of_feed hfeed, emitted_cons_of_feed hready, Option.toList_none,
    List.nil_append]

/-- No lexeme ends before the text begins. -/
theorem filter_allFrom_eq_nil {before bound : Nat} (h : bound ≤ before) (text : List Char) :
    (allFrom before text).filter (·.stop < bound) = [] := by
  rw [List.filter_eq_nil_iff]
  intro lexeme hmem
  have := Lexeme.lt_stop_of_mem_allFrom hmem
  simp only [decide_eq_true_eq]
  omega

/-- **Every token comes out with the first character after its lexeme**, and none before. -/
theorem emitted_take (h : Readable text) (before : Nat) {n : Nat} (hn : n ≤ text.length) :
    ready.emitted (text.take n)
      = ((allFrom before text).filter (·.stop < before + n)).filterMap Lexeme.token? := by
  induction text using Lexeme.text_induction generalizing before n with
  | nil =>
    rw [List.take_nil, Lexeme.allFrom_nil]
    rfl
  | blank c rest hc hb ih =>
    rw [Lexeme.readable_blank hc hb] at h
    rw [Lexeme.allFrom_blank hc hb]
    cases n with
    | zero =>
      rw [filter_allFrom_eq_nil (by omega)]
      rfl
    | succ n =>
      rw [List.take_succ_cons, emitted_cons_of_feed (feed_ready_of_blank hc hb),
        Option.toList_none, List.nil_append, ih h (before + 1) (Nat.le_of_succ_le_succ hn)]
      congr 3
      funext lexeme
      rw [Nat.add_right_comm, Nat.add_assoc]
  | lexeme text rest hl ih =>
    rw [Lexeme.readable_append hl (before + text.length)] at h
    obtain ⟨hsome, hsign, hrest⟩ := h
    obtain ⟨token, ht⟩ := Option.isSome_iff_exists.1 hsome
    obtain ⟨last, habs, hr, hends⟩ := exists_absorbs_of_leads hl ht hsign
    rw [Lexeme.allFrom_append hl]
    by_cases hle : n ≤ text.length
    · -- the lexeme is not complete, so nothing comes out
      obtain ⟨last', habs'⟩ := habs.take n
      have hemitted := habs'.emitted_append []
      rw [List.append_nil] at hemitted
      rw [List.take_append_of_le_length hle, hemitted,
        List.filter_cons_of_neg (by simp; omega), filter_allFrom_eq_nil (by omega)]
      rfl
    · -- the character after the lexeme brings its token out
      obtain ⟨m, rfl⟩ : ∃ m, n = text.length + (m + 1) := ⟨n - text.length - 1, by omega⟩
      cases rest with
      | nil =>
        rw [List.append_nil] at hn
        omega
      | cons c rest =>
        obtain ⟨next, hs⟩ := exists_start_of_readable hrest
        have hlen : m + 1 ≤ (c :: rest).length := by
          rw [List.length_append] at hn
          omega
        have hrec := ih hrest (before + text.length) hlen
        rw [List.take_succ_cons] at hrec
        rw [List.take_length_add_append, List.take_succ_cons, habs.emitted_append,
          emitted_of_endsBefore (hends c rfl) hr hs, hrec, List.filter_cons_of_pos (by simp),
          List.filterMap_cons_some ht, Nat.add_assoc]
        rfl

/-! ## All together -/

/-- **A lexer cuts a text as far as it can.** It gets through the texts that can be read and no
others; the tokens are then those of the lexemes, one each, in order. The lexemes are all of the text
but its blanks, and those of digits and points are its longest runs of them. After a part of the
text has been fed, the tokens that came out are those of the lexemes that end in it with another
character after them. -/
theorem scan_eq_maximal_munch (text : List Char) :
    ((∃ tokens, ready.scan text = (tokens, none)) ↔ Readable text) ∧
    (∀ tokens, ready.scan text = (tokens, none) →
      tokens.map some = (Lexeme.all text).map Lexeme.token?) ∧
    ((Lexeme.all text).flatMap (·.text) = text.filter fun c => !Text.isBlank c) ∧
    (((Lexeme.all text).map (·.text)).filter (·.any isNumeralChar) = Lexeme.numeralRuns text) ∧
    (Readable text → ∀ first second, text = first ++ second →
      ready.emitted first
        = ((Lexeme.all text).filter (·.stop < first.length)).filterMap Lexeme.token?) := by
  refine ⟨?_, ?_, ?_, ?_, ?_⟩
  · constructor
    · intro h
      rcases h with ⟨tokens, h⟩
      exact ((scan_iff 0).1 h).1
    · intro h
      obtain ⟨tokens, htokens⟩ := Lexeme.exists_tokens h 0
      exact ⟨tokens, (scan_iff 0).2 ⟨h, htokens⟩⟩
  · intro tokens h
    exact ((scan_iff 0).1 h).2
  · exact Lexeme.flatMap_text_allFrom 0 text
  · exact Lexeme.filter_text_allFrom 0 text
  · intro h first second htext
    have hlen : first.length ≤ text.length := by
      rw [htext, List.length_append]
      omega
    have := emitted_take h 0 hlen
    rwa [htext, List.take_left', Nat.zero_add, ← htext] at this
    rfl

end Lexer
end KeypadCalculator
