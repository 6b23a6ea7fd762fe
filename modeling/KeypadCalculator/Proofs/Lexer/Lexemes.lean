import KeypadCalculator.Lexeme
import Mathlib.Data.List.TakeWhile

/-!
# A text from its first lexeme on

What a text is made of, said lexeme by lexeme. A text is empty, or begins with a blank, or begins
with a lexeme (`Leads`), and `text_induction` goes through a text that way. What the whole-text
definitions say of a text that begins with a blank or a lexeme:

* `allFrom_blank`, `allFrom_append` for the list of lexemes;
* `token?_run`, `token?_single` for the token of the first one, and `single?_eq_ofChar?` for the
  table that the lexer has of single characters;
* `readable_blank`, `readable_append` for the texts that can be read.
-/

namespace KeypadCalculator

open Numeral (isNumeralChar)

/-! ## Two characters next to each other -/

/-- A pair stands in a text at its beginning or later. -/
theorem pair_infix_cons_iff {a b c : Char} {rest : List Char} :
    [a, b] <:+: c :: rest ↔ (a = c ∧ rest.head? = some b) ∨ [a, b] <:+: rest := by
  rw [List.infix_cons_iff, List.cons_prefix_cons]
  cases rest with
  | nil => simp
  | cons d rest => simp [eq_comm]

/-- A pair does not begin among characters other than its first one. -/
theorem pair_infix_append_iff {a b : Char} {first rest : List Char} (h : a ∉ first) :
    [a, b] <:+: first ++ rest ↔ [a, b] <:+: rest := by
  induction first with
  | nil => rfl
  | cons c first ih =>
    have hc : ¬ a = c := fun hc => h (hc ▸ List.mem_cons_self ..)
    rw [List.cons_append, pair_infix_cons_iff, ih fun hm => h (List.mem_cons_of_mem _ hm)]
    simp [hc]

namespace Lexeme

variable {c : Char} {text rest run : List Char} {before : Nat}

/-! ## The first lexeme -/

/-- `Leads text rest` says that `text` is the first lexeme of `text ++ rest`. -/
inductive Leads : List Char → List Char → Prop
  /-- A run of digits and points that goes on as far as it can. -/
  | run {c : Char} {run rest : List Char} (hc : isNumeralChar c = true)
      (hrun : ∀ d ∈ run, isNumeralChar d = true)
      (hrest : ∀ d ∈ rest.head?, isNumeralChar d = false) : Leads (c :: run) rest
  /-- Any other character that is not blank. -/
  | single {c : Char} {rest : List Char} (hn : isNumeralChar c = false)
      (hb : Text.isBlank c = false) : Leads [c] rest

/-- A text that begins with a digit or point begins with a run. -/
theorem leads_takeWhile (hc : isNumeralChar c = true) (rest : List Char) :
    Leads (c :: rest.takeWhile isNumeralChar) (rest.dropWhile isNumeralChar) := by
  refine .run hc ?_ ?_
  · intro d hd
    exact List.mem_takeWhile_imp hd
  · intro d hd
    have := List.head?_dropWhile_not isNumeralChar rest
    rw [Option.mem_def.1 hd] at this
    simpa using this

/-- **A text is read lexeme by lexeme.** What holds of the empty text, and of a text as soon as it
holds of what comes after its first blank or lexeme, holds of every text. -/
theorem text_induction {motive : List Char → Prop} (nil : motive [])
    (blank : ∀ c rest, isNumeralChar c = false → Text.isBlank c = true → motive rest →
      motive (c :: rest))
    (lexeme : ∀ text rest, Leads text rest → motive rest → motive (text ++ rest))
    (text : List Char) : motive text := by
  -- `allFrom` cuts texts in this way; where it begins to count does not matter
  fun_induction allFrom 0 text with
  | case1 => exact nil
  | case2 before c rest hc run ih =>
    have := lexeme _ _ (leads_takeWhile hc rest) ih
    rwa [List.cons_append, List.takeWhile_append_dropWhile] at this
  | case3 before c rest hc hb ih => exact blank c rest (by simpa using hc) hb ih
  | case4 before c rest hc hb ih =>
    exact lexeme [c] rest (.single (by simpa using hc) (by simpa using hb)) ih

/-! ## The list of lexemes -/

theorem allFrom_nil (before : Nat) : allFrom before [] = [] := by
  rw [allFrom]

theorem allFrom_blank (hn : isNumeralChar c = false) (hb : Text.isBlank c = true) :
    allFrom before (c :: rest) = allFrom (before + 1) rest := by
  rw [allFrom, if_neg (by simp [hn]), if_pos hb]

theorem allFrom_append (h : Leads text rest) :
    allFrom before (text ++ rest)
      = ⟨text, before + text.length⟩ :: allFrom (before + text.length) rest := by
  cases h with
  | @run c run rest hc hrun hrest =>
    -- what follows the run does not lengthen it
    have htake : (run ++ rest).takeWhile isNumeralChar = run := by
      rw [List.takeWhile_append_of_pos hrun]
      cases rest with
      | nil => simp
      | cons d rest => simp [hrest d rfl]
    have hdrop : (run ++ rest).dropWhile isNumeralChar = rest := by
      have := List.takeWhile_append_dropWhile (p := isNumeralChar) (l := run ++ rest)
      rw [htake] at this
      exact List.append_cancel_left this
    rw [List.cons_append, allFrom, if_pos hc]
    simp only [htake, hdrop]
  | single hn hb =>
    rw [List.singleton_append, allFrom, if_neg (by simp [hn]), if_neg (by simp [hb])]
    rfl

/-- Every lexeme ends after the place where the text begins. -/
theorem lt_stop_of_mem_allFrom {lexeme : Lexeme} (h : lexeme ∈ allFrom before text) :
    before < lexeme.stop := by
  induction text using text_induction generalizing before with
  | nil =>
    rw [allFrom_nil] at h
    cases h
  | blank c rest hn hb ih =>
    rw [allFrom_blank hn hb] at h
    have := ih h
    omega
  | lexeme text rest hl ih =>
    have hlen : 0 < text.length := by
      cases hl <;> simp
    rw [allFrom_append hl] at h
    rcases List.mem_cons.1 h with rfl | h
    · show before < before + text.length
      omega
    · have := ih h
      omega

/-! ## The token of a lexeme -/

/-- The lexer looks a single character up in the table of `Token.ofChar?`. -/
theorem single?_eq_ofChar? (c : Char) : single? c = Token.ofChar? c := by
  unfold single?
  split <;> try rfl
  unfold Token.ofChar? Operator.ofChar?
  simp_all

/-- These seven characters make tokens by themselves. -/
theorem isSome_single?_iff : (single? c).isSome = true ↔
    c ∈ ['+', '-', '*', '/', '%', '(', ')'] := by
  unfold single?
  split <;> simp_all

theorem token?_run (hc : isNumeralChar c = true) (run : List Char) (stop : Nat) :
    token? ⟨c :: run, stop⟩ = (Numeral.read? (c :: run)).map .number :=
  if_pos hc

theorem token?_single (hn : isNumeralChar c = false) (stop : Nat) :
    token? ⟨[c], stop⟩ = single? c :=
  if_neg (by simp [hn])

/-- A run makes a number exactly when it is a numeral. -/
theorem isSome_token?_run {stop : Nat} (hc : isNumeralChar c = true) :
    (token? ⟨c :: run, stop⟩).isSome = true ↔ Numeral.isNumeral (c :: run) = true := by
  rw [token?_run hc, Option.isSome_map, Numeral.read?]
  split <;> simp_all

/-! ## Texts that can be read -/

/-- `RepeatsSign text rest` says that `text` is a plus or minus and directly followed by the same
sign. -/
def RepeatsSign (text rest : List Char) : Prop :=
  ∃ sign ∈ ['+', '-'], text = [sign] ∧ rest.head? = some sign

theorem repeatsSign_singleton_iff : RepeatsSign [c] rest ↔
    (c = '+' ∧ rest.head? = some '+') ∨ (c = '-' ∧ rest.head? = some '-') := by
  simp [RepeatsSign]

/-- A run is no sign. -/
theorem not_repeatsSign_run (hc : isNumeralChar c = true) : ¬ RepeatsSign (c :: run) rest := by
  intro h
  rcases h with ⟨sign, hmem, heq, -⟩
  obtain ⟨rfl, -⟩ := List.cons.inj heq
  simp only [List.mem_cons, List.not_mem_nil, or_false] at hmem
  rcases hmem with rfl | rfl
  · exact absurd hc (by decide)
  · exact absurd hc (by decide)

theorem numeralRuns_cons (hn : isNumeralChar c = false) (rest : List Char) :
    numeralRuns (c :: rest) = numeralRuns rest := by
  rw [numeralRuns, List.splitOnP_cons_eq_if_modifyHead, if_pos (by simp [hn])]
  rfl

theorem numeralRuns_append (hc : isNumeralChar c = true)
    (hrun : ∀ d ∈ run, isNumeralChar d = true)
    (hrest : ∀ d ∈ rest.head?, isNumeralChar d = false) :
    numeralRuns (c :: run ++ rest) = (c :: run) :: numeralRuns rest := by
  have hall : ∀ d ∈ c :: run, (!isNumeralChar d) = false := by
    intro d hd
    rcases List.mem_cons.1 hd with rfl | hd
    · simp [hc]
    · simp [hrun d hd]
  cases rest with
  | nil =>
    rw [List.append_nil, numeralRuns, List.splitOnP_eq_singleton hall]
    rfl
  | cons d rest =>
    have hd : isNumeralChar d = false := hrest d rfl
    rw [numeralRuns_cons hd, numeralRuns,
      List.splitOnP_append_cons_of_forall_mem hall d (by simp [hd])]
    rfl

/-- A run has characters, and they are digits and points. -/
theorem numeralChars_of_mem_numeralRuns (h : run ∈ numeralRuns text) :
    run ≠ [] ∧ ∀ c ∈ run, isNumeralChar c = true := by
  induction text using text_induction with
  | nil => cases h
  | blank c rest hn hb ih =>
    rw [numeralRuns_cons hn] at h
    exact ih h
  | lexeme text rest hl ih =>
    cases hl with
    | @run c first rest hc hfirst hrest =>
      rw [numeralRuns_append hc hfirst hrest] at h
      rcases List.mem_cons.1 h with rfl | h
      · exact ⟨List.cons_ne_nil c first, List.forall_mem_cons.2 ⟨hc, hfirst⟩⟩
      · exact ih h
    | single hn hb =>
      rw [List.singleton_append, numeralRuns_cons hn] at h
      exact ih h

theorem readable_nil : Readable [] where
  characters := by simp
  noDoubledPlus := by simp
  noDoubledMinus := by simp
  numerals := by simp [numeralRuns]

/-- What it takes to read a text that does not begin with a run. -/
theorem readable_cons (hn : isNumeralChar c = false) : Readable (c :: rest) ↔
    (Text.isBlank c = true ∨ c ∈ ['+', '-', '*', '/', '%', '(', ')']) ∧ ¬ RepeatsSign [c] rest ∧
      Readable rest := by
  rw [repeatsSign_singleton_iff]
  constructor
  · intro h
    rcases h with ⟨hchars, hplus, hminus, hruns⟩
    -- a pair of signs is at the first character or after it, a run only after it
    rw [pair_infix_cons_iff] at hplus hminus
    rw [numeralRuns_cons hn] at hruns
    refine ⟨?_, ?_, ?_, ?_, ?_, hruns⟩
    · have := hchars c (List.mem_cons_self ..)
      simpa [hn] using this
    · intro h
      rcases h with ⟨rfl, hd⟩ | ⟨rfl, hd⟩
      · exact hplus (.inl ⟨rfl, hd⟩)
      · exact hminus (.inl ⟨rfl, hd⟩)
    · exact fun d hd => hchars d (List.mem_cons_of_mem _ hd)
    · exact fun hi => hplus (.inr hi)
    · exact fun hi => hminus (.inr hi)
  · intro h
    rcases h with ⟨hc, hsign, hchars, hplus, hminus, hruns⟩
    refine ⟨?_, ?_, ?_, ?_⟩
    · intro d hd
      rcases List.mem_cons.1 hd with rfl | hd
      · exact .inr hc
      · exact hchars d hd
    · rw [pair_infix_cons_iff]
      intro h
      rcases h with ⟨rfl, hd⟩ | hi
      · exact hsign (.inl ⟨rfl, hd⟩)
      · exact hplus hi
    · rw [pair_infix_cons_iff]
      intro h
      rcases h with ⟨rfl, hd⟩ | hi
      · exact hsign (.inr ⟨rfl, hd⟩)
      · exact hminus hi
    · rwa [numeralRuns_cons hn]

theorem readable_blank (hn : isNumeralChar c = false) (hb : Text.isBlank c = true) :
    Readable (c :: rest) ↔ Readable rest := by
  have hsign : ¬ RepeatsSign [c] rest := by
    rw [repeatsSign_singleton_iff]
    intro h
    rcases h with ⟨rfl, -⟩ | ⟨rfl, -⟩
    · exact absurd hb (by decide)
    · exact absurd hb (by decide)
  rw [readable_cons hn]
  simp [hb, hsign]

/-- What it takes to read a text that begins with a run. -/
theorem readable_run (hc : isNumeralChar c = true) (hrun : ∀ d ∈ run, isNumeralChar d = true)
    (hrest : ∀ d ∈ rest.head?, isNumeralChar d = false) :
    Readable (c :: run ++ rest) ↔ Numeral.isNumeral (c :: run) = true ∧ Readable rest := by
  have hall : ∀ d ∈ c :: run, isNumeralChar d = true := by
    intro d hd
    rcases List.mem_cons.1 hd with rfl | hd
    · exact hc
    · exact hrun d hd
  -- a run has no signs, so pairs of them are in the rest
  have hplus : '+' ∉ c :: run := fun hm => absurd (hall _ hm) (by decide)
  have hminus : '-' ∉ c :: run := fun hm => absurd (hall _ hm) (by decide)
  constructor
  · intro h
    rcases h with ⟨hchars, hp, hm, hruns⟩
    rw [pair_infix_append_iff hplus] at hp
    rw [pair_infix_append_iff hminus] at hm
    rw [numeralRuns_append hc hrun hrest] at hruns
    refine ⟨hruns _ (List.mem_cons_self ..), ?_, hp, hm, ?_⟩
    · exact fun d hd => hchars d (List.mem_append_right _ hd)
    · exact fun run hr => hruns run (List.mem_cons_of_mem _ hr)
  · intro h
    rcases h with ⟨hnumeral, hchars, hp, hm, hruns⟩
    refine ⟨?_, ?_, ?_, ?_⟩
    · intro d hd
      rcases List.mem_append.1 hd with hd | hd
      · exact .inl (hall d hd)
      · exact hchars d hd
    · rwa [pair_infix_append_iff hplus]
    · rwa [pair_infix_append_iff hminus]
    · rw [numeralRuns_append hc hrun hrest]
      intro r hr
      rcases List.mem_cons.1 hr with rfl | hr
      · exact hnumeral
      · exact hruns r hr

/-- **A text can be read lexeme by lexeme.** Its first lexeme must make a token and must not be a
sign that is repeated, and what comes after it must be readable. -/
theorem readable_append (h : Leads text rest) (stop : Nat) : Readable (text ++ rest) ↔
    (token? ⟨text, stop⟩).isSome = true ∧ ¬ RepeatsSign text rest ∧ Readable rest := by
  cases h with
  | @run c run rest hc hrun hrest =>
    rw [readable_run hc hrun hrest, isSome_token?_run hc]
    simp [not_repeatsSign_run hc]
  | @single c rest hn hb =>
    rw [List.singleton_append, readable_cons hn, token?_single hn, isSome_single?_iff]
    simp [hb]

/-- Every lexeme of a readable text makes a token. -/
theorem exists_tokens (h : Readable text) (before : Nat) :
    ∃ tokens : List Token, tokens.map some = (allFrom before text).map token? := by
  induction text using text_induction generalizing before with
  | nil =>
    rw [allFrom_nil]
    exact ⟨[], rfl⟩
  | blank c rest hn hb ih =>
    rw [allFrom_blank hn hb]
    exact ih ((readable_blank hn hb).1 h) (before + 1)
  | lexeme text rest hl ih =>
    obtain ⟨hsome, -, hrest⟩ := (readable_append hl (before + text.length)).1 h
    obtain ⟨token, ht⟩ := Option.isSome_iff_exists.1 hsome
    obtain ⟨tokens, htokens⟩ := ih hrest (before + text.length)
    rw [allFrom_append hl]
    exact ⟨token :: tokens, by rw [List.map_cons, List.map_cons, htokens, ht]⟩

/-! ## What the lexemes of a text are -/

theorem isBlank_of_isNumeralChar (hc : isNumeralChar c = true) : Text.isBlank c = false := by
  have hrange : c.toNat = 46 ∨ (48 ≤ c.toNat ∧ c.toNat ≤ 57) := by
    rw [isNumeralChar, Bool.or_eq_true, beq_iff_eq] at hc
    rcases hc with hc | rfl
    · right
      simpa [Char.isDigit, UInt32.le_iff_toNat_le] using hc
    · exact .inl rfl
  -- no range of blanks has a code from 46 to 57 in it
  rw [Text.isBlank, List.any_eq_false]
  simp only [Text.blankRanges, List.forall_mem_cons, Bool.and_eq_true, decide_eq_true_eq,
    List.not_mem_nil, IsEmpty.forall_iff, implies_true, and_true]
  omega

/-- The lexemes of a text are all of it but its blanks, in order. -/
theorem flatMap_text_allFrom (before : Nat) (text : List Char) :
    (allFrom before text).flatMap (·.text) = text.filter fun c => !Text.isBlank c := by
  induction text using text_induction generalizing before with
  | nil =>
    rw [allFrom_nil]
    rfl
  | blank c rest hn hb ih =>
    rw [allFrom_blank hn hb, ih, List.filter_cons_of_neg (by simp [hb])]
  | lexeme text rest hl ih =>
    have hkept : text.filter (fun c => !Text.isBlank c) = text := by
      rw [List.filter_eq_self]
      cases hl with
      | run hc hrun hrest =>
        intro d hd
        rcases List.mem_cons.1 hd with rfl | hd
        · simp [isBlank_of_isNumeralChar hc]
        · simp [isBlank_of_isNumeralChar (hrun d hd)]
      | single hn hb =>
        intro d hd
        rw [List.mem_singleton.1 hd, hb]
        rfl
    rw [allFrom_append hl, List.flatMap_cons, ih, List.filter_append, hkept]

/-- The lexemes of digits and points are the longest runs of them. -/
theorem filter_text_allFrom (before : Nat) (text : List Char) :
    ((allFrom before text).map (·.text)).filter (·.any isNumeralChar) = numeralRuns text := by
  induction text using text_induction generalizing before with
  | nil =>
    rw [allFrom_nil]
    rfl
  | blank c rest hn hb ih =>
    rw [allFrom_blank hn hb, ih, numeralRuns_cons hn]
  | lexeme text rest hl ih =>
    rw [allFrom_append hl, List.map_cons]
    cases hl with
    | run hc hrun hrest =>
      rw [numeralRuns_append hc hrun hrest, List.filter_cons_of_pos (by simp [hc]), ih]
    | single hn hb =>
      rw [List.singleton_append, numeralRuns_cons hn, List.filter_cons_of_neg (by simp [hn]), ih]

end Lexeme
end KeypadCalculator
