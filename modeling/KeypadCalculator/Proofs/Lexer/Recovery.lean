import KeypadCalculator.Proofs.Lexer.Scan
import Mathlib.Data.List.Induction

/-!
# Reading on after an error

A lexer that has reported an error holds nothing back, and neither does one that has come to the end
of a text. So whatever is read after either is read as from the start.

What an error costs is the character that brought it and what was held back until then. To say so,
the characters held back are followed through a run:

* `Holds`: a lexer holds the characters of one numeral, or one character, or none;
* `Feeds`: a character goes on with what is held, or it brings that out and is held itself, or it
  fails;
* `exists_holds_final`: what a lexer holds after a run is the last of what it was given, and
  everything that came before has been reported as if the text had ended there.

`reads_on_as_from_start` puts these together.
-/

namespace KeypadCalculator
namespace Lexer

open Numeral (isNumeralChar)
open Stepwise (answers final answers_concat answers_append_cons final_concat)

variable {lexer next : Lexer} {c : Char} {inputs : List Input}

/-! ## What is held back -/

/-- `Holds lexer text` says that these are the characters that the lexer holds back. -/
inductive Holds : Lexer → List Char → Prop
  | nothing : Holds ready []
  /-- The digits and points of a numeral. -/
  | numeral {text : List Char} (hne : text ≠ []) (h : ∀ c ∈ text, isNumeralChar c = true) :
      Holds (numeral text) text
  /-- The character of an operator or parenthesis. -/
  | single {c : Char} {token : Token} (h : Token.ofChar? c = some token) : Holds (held token) [c]

/-- A character with which reading starts anew is held back, unless it is blank. -/
theorem holds_of_start (h : start c = .ok next) : next = ready ∨ Holds next [c] := by
  unfold start at h
  split at h
  · rename_i hc
    obtain rfl := Except.ok.inj h
    exact .inr (.numeral (List.cons_ne_nil c []) (by simpa using hc))
  · split at h
    · obtain rfl := Except.ok.inj h
      exact .inl rfl
    · split at h
      · rename_i token ht
        obtain rfl := Except.ok.inj h
        exact .inr (.single ht)
      · cases h

/-! ## One character -/

/-- `Feeds lexer c next answer` says how the lexer answers the character, and what it becomes. -/
inductive Feeds : Lexer → Char → Lexer → Answer → Prop
  /-- A digit or point goes on with a numeral. -/
  | grows {text : List Char} {c : Char} (hc : isNumeralChar c = true) :
      Feeds (numeral text) c (numeral (text ++ [c])) (.ok none)
  /-- What was held back comes out, and reading starts anew. -/
  | begins {lexer next : Lexer} {c : Char} {token : Option Token}
      (hrelease : lexer.release = .ok token) (hstart : start c = .ok next) :
      Feeds lexer c next (.ok token)
  /-- An error leaves nothing held back. -/
  | fails {lexer : Lexer} {c : Char} (e : LexicalError) : Feeds lexer c ready (.error e)

theorem feeds_advance (lexer : Lexer) (c : Char) :
    Feeds lexer c (lexer.advance c).1 (lexer.advance c).2 := by
  unfold advance
  cases hrelease : lexer.release with
  | error e => exact .fails e
  | ok token =>
    cases hstart : start c with
    | error e => exact .fails e
    | ok next => exact .begins hrelease hstart

/-- **There are no other ways to answer a character.** -/
theorem feeds_feed (lexer : Lexer) (c : Char) :
    Feeds lexer c (lexer.feed c).1 (lexer.feed c).2 := by
  unfold feed
  cases lexer.doubledSign? c with
  | some op => exact .fails (.doubledSign op)
  | none =>
    cases lexer with
    | ready => exact feeds_advance ready c
    | held token => exact feeds_advance (held token) c
    | numeral text =>
      by_cases hc : isNumeralChar c = true
      · dsimp only
        rw [if_pos hc]
        exact .grows hc
      · dsimp only
        rw [if_neg hc]
        exact feeds_advance (numeral text) c

theorem Feeds.eq_ready {e : LexicalError} (h : Feeds lexer c next (.error e)) : next = ready := by
  cases h with
  | fails e => rfl

theorem step_char (lexer : Lexer) (c : Char) : lexer.step (.char c) = lexer.feed c := rfl

/-- **An error leaves nothing held back**, whatever was held and whatever brought it. -/
theorem step_of_error {i : Input} {e : LexicalError} (h : (lexer.step i).2 = .error e) :
    lexer.step i = (ready, .error e) := by
  refine Prod.ext ?_ h
  cases i with
  | finish => rfl
  | char c =>
    rw [step_char] at h ⊢
    exact Feeds.eq_ready (h ▸ feeds_feed lexer c)

/-- What is held back after a character is what was held with the character behind it, and nothing
is reported; or it is the character alone, and what was held is reported. -/
theorem Feeds.holds {answer : Answer} {text : List Char} (h : Feeds lexer c next answer)
    (hholds : Holds lexer text) (hnext : next ≠ ready) :
    (Holds next (text ++ [c]) ∧ answer = .ok none) ∨ (Holds next [c] ∧ answer = lexer.release) := by
  cases h with
  | grows hc =>
    left
    cases hholds with
    | numeral hne hall =>
      refine ⟨.numeral (by simp) ?_, rfl⟩
      simpa only [List.forall_mem_append, List.forall_mem_singleton] using ⟨hall, hc⟩
  | begins hrelease hstart =>
    right
    exact ⟨(holds_of_start hstart).resolve_left hnext, hrelease.symm⟩
  | fails e => exact absurd rfl hnext

/-! ## Runs -/

/-- The answers that say something: tokens and errors, in order. -/
def reports (answers : List Answer) : List Answer :=
  answers.filter fun answer => decide (answer ≠ .ok none)

theorem reports_append (first second : List Answer) :
    reports (first ++ second) = reports first ++ reports second :=
  List.filter_append ..

/-- Where nothing is held back, the end of a text reports nothing. -/
theorem reports_finish_of_ready (h : final step ready inputs = ready) :
    reports (answers step ready inputs) = reports (answers step ready (inputs ++ [.finish])) := by
  rw [answers_concat, h, reports_append]
  exact (List.append_nil _).symm

/-- **What is held back is the last of what was given.** What came before it has been reported as if
the text had ended there; none of it is lost, and what is held back has not been reported at all. -/
theorem exists_holds_final (inputs : List Input) : ∃ kept text, inputs = kept ++ text.map .char ∧
    Holds (final step ready inputs) text ∧
    reports (answers step ready inputs) = reports (answers step ready (kept ++ [.finish])) := by
  induction inputs using List.reverseRecOn with
  | nil => exact ⟨[], [], rfl, .nothing, rfl⟩
  | append_singleton inputs i ih =>
    -- with nothing held back there is nothing to account for
    by_cases hready : final step ready (inputs ++ [i]) = ready
    · refine ⟨inputs ++ [i], [], (List.append_nil _).symm, ?_, reports_finish_of_ready hready⟩
      rw [hready]
      exact .nothing
    obtain ⟨kept, text, hinputs, hholds, hreports⟩ := ih
    rw [final_concat] at hready
    rw [final_concat, answers_concat, reports_append]
    cases i with
    | finish => exact absurd rfl hready
    | char c =>
      rw [step_char] at hready ⊢
      rcases (feeds_feed (final step ready inputs) c).holds hholds hready with
        ⟨hnext, hanswer⟩ | ⟨hnext, hanswer⟩
      · -- the character goes on with what is held
        refine ⟨kept, text ++ [c], by simp [hinputs], hnext, ?_⟩
        rw [hanswer, hreports]
        exact List.append_nil _
      · -- what was held comes out as it would at the end of the text
        refine ⟨inputs, [c], rfl, hnext, ?_⟩
        rw [hanswer, answers_concat, reports_append]
        rfl

/-! ## All together -/

/-- **After an error, and after the end of a text, a lexer reads on as from the start.** When an
input of a run is answered with an error, what comes before it is a part whose tokens and errors have
all been reported, and the characters that were held back. These and the character of the input
itself are all that is lost: the tokens and errors of the whole run are those of the first part, as
if the text had ended behind it, then the error, then those of what follows, read from the start. -/
theorem reads_on_as_from_start (inputs : List Input) (i : Input) (later : List Input) :
    let lexer := final step ready inputs
    (((∃ e, (lexer.step i).2 = .error e) ∨ i = .finish) →
      answers step ready (inputs ++ i :: later)
        = answers step ready (inputs ++ [i]) ++ answers step ready later) ∧
    (∀ e, (lexer.step i).2 = .error e → ∃ kept text, inputs = kept ++ text.map .char ∧
      lexer.Holds text ∧ reports (answers step ready (inputs ++ i :: later))
        = reports (answers step ready (kept ++ [.finish])) ++
          .error e :: reports (answers step ready later)) := by
  intro lexer
  have hafter : ((∃ e, (lexer.step i).2 = .error e) ∨ i = .finish) →
      answers step ready (inputs ++ i :: later)
        = answers step ready (inputs ++ [i]) ++ answers step ready later := by
    intro h
    rcases h with ⟨e, he⟩ | rfl
    · exact answers_append_cons (congrArg Prod.fst (step_of_error he)) later
    · exact answers_append_cons rfl later
  refine ⟨hafter, fun e he => ?_⟩
  obtain ⟨kept, text, hinputs, hholds, hreports⟩ := exists_holds_final inputs
  refine ⟨kept, text, hinputs, hholds, ?_⟩
  rw [hafter (.inl ⟨e, he⟩), reports_append, answers_concat, reports_append, hreports,
    step_of_error he, List.append_assoc]
  rfl

-- the numeral of two points is lost with the parenthesis that ends it
example : reports (answers step ready ("1+2..(7 ".toList.map .char)) =
    [.ok (some (.number 1)), .ok (some (.operator .add)), .error (.badNumeral "2..".toList),
      .ok (some (.number 7))] := by
  decide +kernel

end Lexer
end KeypadCalculator
