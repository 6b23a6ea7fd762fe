import KeypadCalculator.Proofs.Calculation.Derivation

/-!
# The first error of a calculation

A calculation goes wrong at the earliest token where it can: as long as the tokens so far can be
completed to an expression they are taken, and the first token after which they cannot is answered
with an error.

* `Awaits.isBeginning` builds the completion, by going down the stack and closing what is open;
* `isBeginning_iff`: the tokens that are taken are the beginnings of expressions;
* `Misfits` and `EndsBadly` tell from the tokens alone which error there is, and
  `failsAt_iff_misfits` and `finish_eq_error_iff` say that they are right;
* `failsAt_congr`: no error depends on the values of the numbers.

`first_error_classified` puts these together.
-/

namespace KeypadCalculator

open Expression

/-! ## What the tokens alone tell -/

/-- An operand is due at the start, after an operator and after an opening parenthesis. -/
def Expression.OperandDue (tokens : List Token) : Prop :=
  tokens = [] ∨ (∃ op, tokens.getLast? = some (.operator op)) ∨ tokens.getLast? = some .openParen

/-- An operand is given after a number and after a closing parenthesis. -/
def Expression.OperandGiven (tokens : List Token) : Prop :=
  (∃ v, tokens.getLast? = some (.number v)) ∨ tokens.getLast? = some .closeParen

/-- `Misfits tokens token e` says that `token` must not follow the tokens, and why. -/
def Expression.Misfits (tokens : List Token) (token : Token) : SyntaxError → Prop
  | .numberExpected => OperandDue tokens ∧
      token ∈ [.operator .mul, .operator .div, .operator .rem, .closeParen]
  | .operatorExpected => OperandGiven tokens ∧ ((∃ v, token = .number v) ∨ token = .openParen)
  | .unbalanced => OperandGiven tokens ∧ token = .closeParen ∧
      tokens.count .closeParen = tokens.count .openParen
  | .unclosed => False

/-- `EndsBadly tokens e` says that the tokens must not end where they do, and why. -/
def Expression.EndsBadly (tokens : List Token) : SyntaxError → Prop
  | .numberExpected => OperandDue tokens
  | .unclosed => OperandGiven tokens ∧ tokens.count .closeParen < tokens.count .openParen
  | .operatorExpected | .unbalanced => False

/-- The token with a number in it made zero. -/
def Token.shape : Token → Token
  | .number _ => .number 0
  | token => token

/-- An operand is not both due and given. -/
theorem Expression.OperandDue.not_given {tokens : List Token} (hd : OperandDue tokens)
    (hg : OperandGiven tokens) : False := by
  rcases hd with rfl | ⟨op, hd⟩ | hd
  · rcases hg with ⟨v, hg⟩ | hg <;> cases hg
  · rcases hg with ⟨v, hg⟩ | hg <;> cases hd.symm.trans hg
  · rcases hg with ⟨v, hg⟩ | hg <;> cases hd.symm.trans hg

/-- Whatever begins with tokens that begin an expression, these begin one. -/
theorem Expression.IsBeginning.of_append {first : List Token} (second : List Token)
    (h : IsBeginning (first ++ second)) : IsBeginning first := by
  obtain ⟨rest, v, h⟩ := h
  exact ⟨second ++ rest, v, by rwa [← List.append_assoc]⟩

/-! ## Shapes -/

theorem Token.shape_eq_iff_of_not_number {token other : Token} (h : ∀ v, other ≠ .number v) :
    token.shape = other ↔ token = other := by
  cases token with
  | number v =>
    constructor
    · intro hs
      exact absurd hs.symm (h 0)
    · intro hs
      exact absurd hs.symm (h v)
  | operator | openParen | closeParen => rfl

theorem Token.exists_shape_eq_number_iff {token : Token} :
    (∃ v, token.shape = .number v) ↔ ∃ v, token = .number v := by
  cases token with
  | number v => exact ⟨fun _ => ⟨v, rfl⟩, fun _ => ⟨0, rfl⟩⟩
  | operator | openParen | closeParen => rfl

namespace Expression

variable {tokens : List Token} {token : Token} {e : SyntaxError}

theorem getLast?_map_shape {other : Token} (h : ∀ v, other ≠ .number v) :
    (tokens.map Token.shape).getLast? = some other ↔ tokens.getLast? = some other := by
  rw [List.getLast?_map]
  cases tokens.getLast? with
  | none => rfl
  | some token => simp [Token.shape_eq_iff_of_not_number h]

theorem count_map_shape {other : Token} (h : ∀ v, other ≠ .number v) :
    (tokens.map Token.shape).count other = tokens.count other := by
  induction tokens with
  | nil => rfl
  | cons token rest ih =>
    rw [List.map_cons, List.count_cons, List.count_cons, ih]
    simp [Token.shape_eq_iff_of_not_number h]

theorem operandDue_map_shape : OperandDue (tokens.map Token.shape) ↔ OperandDue tokens := by
  have hop : ∀ op, (tokens.map Token.shape).getLast? = some (.operator op)
      ↔ tokens.getLast? = some (.operator op) := fun op => getLast?_map_shape (by simp)
  rw [OperandDue, OperandDue, List.map_eq_nil_iff, getLast?_map_shape (by simp)]
  simp only [hop]

theorem operandGiven_map_shape : OperandGiven (tokens.map Token.shape) ↔ OperandGiven tokens := by
  rw [OperandGiven, OperandGiven, getLast?_map_shape (by simp), List.getLast?_map]
  cases tokens.getLast? with
  | none => simp
  | some token => simp [Token.exists_shape_eq_number_iff]

/-- Whether a token misfits does not depend on the values of numbers. -/
theorem misfits_map_shape :
    Misfits (tokens.map Token.shape) token.shape e ↔ Misfits tokens token e := by
  cases e with
  | numberExpected =>
    rw [Misfits, Misfits, operandDue_map_shape]
    cases token <;> simp [Token.shape]
  | operatorExpected =>
    rw [Misfits, Misfits, operandGiven_map_shape, Token.exists_shape_eq_number_iff,
      Token.shape_eq_iff_of_not_number (by simp)]
  | unbalanced =>
    rw [Misfits, Misfits, operandGiven_map_shape, count_map_shape (by simp),
      count_map_shape (by simp), Token.shape_eq_iff_of_not_number (by simp)]
  | unclosed => rfl

end Expression

namespace Calculation

variable {tokens before : List Token} {token : Token} {c next : Calculation} {e : SyntaxError}

/-! ## What the tokens tell about a calculation -/

/-- The last token tells whether the operand is awaited. -/
theorem operand_of_pushAll (h : pushAll {} tokens = .ok c) :
    (OperandDue tokens ∧ ∃ negated, c.operand = .awaited negated) ∨
      (OperandGiven tokens ∧ ∃ v, c.operand = .value v) := by
  refine pushAll_induction (motive := fun tokens c =>
    (OperandDue tokens ∧ ∃ negated, c.operand = .awaited negated) ∨
      (OperandGiven tokens ∧ ∃ v, c.operand = .value v)) ?_ ?_ h
  · exact .inl ⟨.inl rfl, false, rfl⟩
  · intro tokens c token next _ ht
    -- what went before does not matter, only the token that was just taken
    have hlast : (tokens ++ [token]).getLast? = some token := List.getLast?_concat
    cases ht with
    | number negated v pending => exact .inr ⟨.inl ⟨v, hlast⟩, _, rfl⟩
    | plus negated pending | minus negated pending =>
      exact .inl ⟨.inr (.inl ⟨_, hlast⟩), _, rfl⟩
    | openParen negated pending => exact .inl ⟨.inr (.inr hlast), _, rfl⟩
    | operator v op pending => exact .inl ⟨.inr (.inl ⟨op, hlast⟩), _, rfl⟩
    | closeParen hg => exact .inr ⟨.inr hlast, _, rfl⟩

theorem operandDue_of_awaited {negated : Bool} {pending : List Pending}
    (h : pushAll {} tokens = .ok ⟨.awaited negated, pending⟩) : OperandDue tokens := by
  rcases operand_of_pushAll h with ⟨hdue, -⟩ | ⟨-, v, hv⟩
  · exact hdue
  · cases hv

theorem operandGiven_of_value {v : Float} {pending : List Pending}
    (h : pushAll {} tokens = .ok ⟨.value v, pending⟩) : OperandGiven tokens := by
  rcases operand_of_pushAll h with ⟨-, negated, hn⟩ | ⟨hgiven, -⟩
  · cases hn
  · exact hgiven

theorem exists_awaited_of_operandDue (h : pushAll {} tokens = .ok c) (hd : OperandDue tokens) :
    ∃ negated pending, c = ⟨.awaited negated, pending⟩ := by
  rcases operand_of_pushAll h with ⟨-, negated, hn⟩ | ⟨hgiven, -⟩
  · exact ⟨negated, c.pending, hn ▸ rfl⟩
  · exact (hd.not_given hgiven).elim

theorem exists_value_of_operandGiven (h : pushAll {} tokens = .ok c) (hg : OperandGiven tokens) :
    ∃ v pending, c = ⟨.value v, pending⟩ := by
  rcases operand_of_pushAll h with ⟨hdue, -⟩ | ⟨-, v, hv⟩
  · exact (hdue.not_given hg).elim
  · exact ⟨v, c.pending, hv ▸ rfl⟩

/-- The open groups are the opening parentheses less the closing ones. -/
theorem openGroups_of_pushAll (h : pushAll {} tokens = .ok c) :
    openGroups c.pending + tokens.count .closeParen = tokens.count .openParen := by
  refine pushAll_induction (motive := fun tokens c =>
    openGroups c.pending + tokens.count .closeParen = tokens.count .openParen) rfl ?_ h
  intro tokens c token next ih ht
  have hcount := ht.openGroups_add_count
  rw [List.count_append, List.count_append]
  omega

/-! ## Completions -/

/-- **Every stack can be completed.** Each phrase that is awaited below ends with the one that is
complete, so the induction goes down the stack; a group is closed on the way. -/
theorem Awaits.isBeginning {phrase : Phrase} {body : List Token} {pending : List Pending}
    {v : Float} (h : Awaits phrase before pending) (hd : Derives phrase body v) :
    IsBeginning (before ++ body) := by
  induction h generalizing body v with
  | start => exact ⟨[], v, by rwa [List.append_nil]⟩
  | @group signs before pending hs h ih =>
    -- the parenthesis that closes the group is the next token of the completion
    apply IsBeginning.of_append [.closeParen]
    have := ih (.factor hs (.group hd))
    simpa only [List.append_assoc, List.cons_append, List.nil_append] using this
  | product h ih => exact ih (.ofProduct hd)
  | factor h ih => exact ih (.ofFactor hd)
  | addend hop h hl ih =>
    have := ih (.added hop hl hd)
    simpa only [List.append_assoc, List.cons_append, List.nil_append] using this
  | multiplier hop h hl ih =>
    have := ih (.scaled hop hl hd)
    simpa only [List.append_assoc, List.cons_append, List.nil_append] using this

/-- Tokens that are taken can be completed to an expression; a number first, where a factor is
awaited. -/
theorem isBeginning_of_pushAll (h : pushAll {} tokens = .ok c) : IsBeginning tokens := by
  cases explains_of_pushAll h with
  | @awaited signs before pending hs hb =>
    apply IsBeginning.of_append [.number 0]
    rw [List.append_assoc]
    exact hb.isBeginning (.factor hs (.number 0))
  | value hstands =>
    obtain ⟨before, body, rfl, hb, hd⟩ := hstands
    exact hb.isBeginning hd

/-- The tokens that are taken are the beginnings of expressions. -/
theorem isBeginning_iff : IsBeginning tokens ↔ ∃ c, pushAll {} tokens = .ok c := by
  constructor
  · intro h
    rcases h with ⟨rest, v, h⟩
    obtain ⟨c, hrun, -⟩ := exists_pushAll_of_hasValue h
    -- the run over the completion begins with the run over the tokens
    rw [pushAll_append] at hrun
    cases hfirst : pushAll {} tokens with
    | ok c => exact ⟨c, rfl⟩
    | error e =>
      rw [hfirst] at hrun
      cases hrun
  · intro h
    rcases h with ⟨c, h⟩
    exact isBeginning_of_pushAll h

/-! ## The answer to one more token -/

/-- A token that is not taken misfits the tokens that were. -/
theorem Rejects.misfits (h : pushAll {} tokens = .ok c) (hr : Rejects c token e next) :
    Misfits tokens token e := by
  have hopen := openGroups_of_pushAll h
  cases hr with
  | @operator negated op hop pending =>
    refine ⟨operandDue_of_awaited h, ?_⟩
    cases op with
    | add | sub => cases hop
    | mul | div | rem => simp
  | closeParen negated pending => exact ⟨operandDue_of_awaited h, by simp⟩
  | number v w pending => exact ⟨operandGiven_of_value h, .inl ⟨w, rfl⟩⟩
  | openParen v pending => exact ⟨operandGiven_of_value h, .inr rfl⟩
  | @unbalanced v pending hnone =>
    change openGroups pending + _ = _ at hopen
    exact ⟨operandGiven_of_value h, rfl, by omega⟩

/-- A token that misfits the tokens that were taken is not taken. -/
theorem exists_rejects_of_misfits (h : pushAll {} tokens = .ok c) (hm : Misfits tokens token e) :
    ∃ next, Rejects c token e next := by
  have hopen := openGroups_of_pushAll h
  cases e with
  | numberExpected =>
    obtain ⟨negated, pending, rfl⟩ := exists_awaited_of_operandDue h hm.1
    have hmem := hm.2
    simp only [List.mem_cons, List.not_mem_nil, or_false] at hmem
    rcases hmem with rfl | rfl | rfl | rfl
    · exact ⟨_, .operator negated rfl pending⟩
    · exact ⟨_, .operator negated rfl pending⟩
    · exact ⟨_, .operator negated rfl pending⟩
    · exact ⟨_, .closeParen negated pending⟩
  | operatorExpected =>
    obtain ⟨v, pending, rfl⟩ := exists_value_of_operandGiven h hm.1
    rcases hm.2 with ⟨w, rfl⟩ | rfl
    · exact ⟨_, .number v w pending⟩
    · exact ⟨_, .openParen v pending⟩
  | unbalanced =>
    obtain ⟨hgiven, rfl, hcount⟩ := hm
    obtain ⟨v, pending, rfl⟩ := exists_value_of_operandGiven h hgiven
    change openGroups pending + _ = _ at hopen
    exact ⟨_, .unbalanced v (by omega)⟩
  | unclosed => exact hm.elim

/-- One token more leaves a beginning exactly when it does not misfit. -/
theorem isBeginning_concat_iff :
    IsBeginning (tokens ++ [token]) ↔ IsBeginning tokens ∧ ∀ e, ¬ Misfits tokens token e := by
  constructor
  · intro h
    obtain ⟨c, hc⟩ := isBeginning_iff.1 h
    obtain ⟨before, hb, ht⟩ := pushAll_concat_eq_ok_iff.1 hc
    refine ⟨isBeginning_of_pushAll hb, fun e hm => ?_⟩
    obtain ⟨next, hr⟩ := exists_rejects_of_misfits hb hm
    cases ht.push_eq.symm.trans hr.push_eq
  · intro h
    rcases h with ⟨h, hfits⟩
    obtain ⟨before, hb⟩ := isBeginning_iff.1 h
    cases hpush : before.push token with
    | mk next answer =>
      cases answer with
      | error e => exact (hfits e ((rejects_of_push hpush).misfits hb)).elim
      | ok _ =>
        have hrun := pushAll_concat_eq_ok_iff.2 ⟨before, hb, accepts_of_push hpush⟩
        exact isBeginning_of_pushAll hrun

/-! ## The first error of a run -/

/-- The calculation takes the first `i` tokens and answers the one after them with `e`. -/
def FailsAt (tokens : List Token) (i : Nat) (e : SyntaxError) : Prop :=
  ∃ c token next, pushAll {} (tokens.take i) = .ok c ∧ tokens[i]? = some token ∧
    c.push token = (next, .error e)

theorem failsAt_iff_misfits {i : Nat} :
    FailsAt tokens i e ↔ IsBeginning (tokens.take i) ∧
      ∃ token, tokens[i]? = some token ∧ Misfits (tokens.take i) token e := by
  constructor
  · intro h
    rcases h with ⟨c, token, next, hrun, htoken, hpush⟩
    exact ⟨isBeginning_of_pushAll hrun, token, htoken, (rejects_of_push hpush).misfits hrun⟩
  · intro h
    rcases h with ⟨hb, token, htoken, hm⟩
    obtain ⟨c, hrun⟩ := isBeginning_iff.1 hb
    obtain ⟨next, hr⟩ := exists_rejects_of_misfits hrun hm
    exact ⟨c, token, next, hrun, htoken, hr.push_eq⟩

/-- The first error comes with the first token after which the tokens cannot be completed. -/
theorem exists_failsAt_iff {i : Nat} :
    (∃ e, FailsAt tokens i e)
      ↔ IsBeginning (tokens.take i) ∧ ¬ IsBeginning (tokens.take (i + 1)) := by
  simp only [failsAt_iff_misfits, List.take_add_one]
  cases htoken : tokens[i]? with
  | none =>
    -- there is no further token, so nothing is wrong with it
    simp
  | some token =>
    rw [Option.toList_some, isBeginning_concat_iff]
    constructor
    · intro h
      rcases h with ⟨e, hb, other, hother, hm⟩
      obtain rfl := Option.some.inj hother
      exact ⟨hb, fun hfits => hfits.2 e hm⟩
    · intro h
      rcases h with ⟨hb, hno⟩
      obtain ⟨e, hm⟩ : ∃ e, Misfits (tokens.take i) token e := by
        by_contra hfits
        exact hno ⟨hb, fun e hm => hfits ⟨e, hm⟩⟩
      exact ⟨e, hb, token, rfl, hm⟩

/-- A run without an error is one that fails nowhere. -/
theorem exists_pushAll_iff_forall_not_failsAt :
    (∃ c, pushAll {} tokens = .ok c) ↔ ∀ i e, ¬ FailsAt tokens i e := by
  constructor
  · intro hrun i e hf
    obtain ⟨-, hno⟩ := exists_failsAt_iff.1 ⟨e, hf⟩
    apply hno
    apply IsBeginning.of_append (tokens.drop (i + 1))
    rw [List.take_append_drop]
    exact isBeginning_iff.2 hrun
  · intro hnone
    -- if the tokens so far begin an expression and one more does not, there is an error
    have hall : ∀ i, IsBeginning (tokens.take i) := by
      intro i
      induction i with
      | zero => exact isBeginning_iff.2 ⟨{}, rfl⟩
      | succ i ih =>
        by_contra hno
        obtain ⟨e, hf⟩ := exists_failsAt_iff.2 ⟨ih, hno⟩
        exact hnone i e hf
    rw [← isBeginning_iff, ← List.take_length (l := tokens)]
    exact hall tokens.length

/-! ## The end of a run -/

/-- The tokens tell what is wrong with their end. -/
theorem finish_eq_error_iff (h : pushAll {} tokens = .ok c) :
    c.finish.2 = .error e ↔ EndsBadly tokens e := by
  have hopen := openGroups_of_pushAll h
  rcases operand_of_pushAll h with ⟨hdue, -⟩ | ⟨hgiven, -⟩
  · -- without an operand the stack is not looked at
    obtain ⟨negated, pending, rfl⟩ := exists_awaited_of_operandDue h hdue
    cases e with
    | numberExpected => exact ⟨fun _ => hdue, fun _ => rfl⟩
    | unclosed => exact ⟨fun hf => (by cases hf), fun hb => (hdue.not_given hb.1).elim⟩
    | operatorExpected | unbalanced => exact ⟨fun hf => (by cases hf), False.elim⟩
  · -- with an operand only a group can be left open
    obtain ⟨v, pending, rfl⟩ := exists_value_of_operandGiven h hgiven
    change openGroups pending + _ = _ at hopen
    show unwind v pending = .error e ↔ _
    rw [unwind_eq_error_iff]
    cases e with
    | numberExpected =>
      exact ⟨fun hf => (by cases hf.1), fun hdue => (OperandDue.not_given hdue hgiven).elim⟩
    | unclosed =>
      constructor
      · intro h
        rcases h with ⟨-, hpos⟩
        exact ⟨hgiven, by omega⟩
      · intro h
        rcases h with ⟨-, hlt⟩
        exact ⟨rfl, by omega⟩
    | operatorExpected | unbalanced => exact ⟨fun hf => (by cases hf.1), False.elim⟩

/-- There is a value at the end unless something is wrong with it. -/
theorem exists_finish_eq_ok_iff (h : pushAll {} tokens = .ok c) :
    (∃ v, c.finish.2 = .ok v) ↔ ∀ e, ¬ EndsBadly tokens e := by
  simp only [← finish_eq_error_iff h]
  cases c.finish.2 with
  | ok v => simp
  | error e => simp

/-! ## The values of numbers do not matter -/

theorem isBeginning_map_shape : IsBeginning (tokens.map Token.shape) ↔ IsBeginning tokens := by
  induction tokens using List.reverseRecOn with
  | nil => rfl
  | append_singleton tokens token ih =>
    rw [List.map_append, List.map_singleton, isBeginning_concat_iff, isBeginning_concat_iff, ih]
    simp only [misfits_map_shape]

theorem failsAt_map_shape {i : Nat} :
    FailsAt (tokens.map Token.shape) i e ↔ FailsAt tokens i e := by
  rw [failsAt_iff_misfits, failsAt_iff_misfits, ← List.map_take, isBeginning_map_shape,
    List.getElem?_map]
  cases tokens[i]? with
  | none => simp
  | some token =>
    simp only [Option.map_some, Option.some.injEq, exists_eq_left', misfits_map_shape]

/-- Where the first error is and which one depends on the shapes of the tokens. -/
theorem failsAt_congr {other : List Token} {i : Nat}
    (h : other.map Token.shape = tokens.map Token.shape) :
    FailsAt other i e ↔ FailsAt tokens i e := by
  rw [← failsAt_map_shape, h, failsAt_map_shape]

/-! ## All together -/

/-- **The first error comes as early as it can and tells what is wrong.** The token of index `i` is
the first that is not taken exactly when the tokens before it begin an expression and do not with
it; its error is the one that `Misfits` tells from the tokens before it, whatever the numbers among
them are. When all tokens are taken, their end is in error exactly as `EndsBadly` tells, and has a
value otherwise. -/
theorem first_error_classified (tokens : List Token) :
    (∀ i, (∃ e, FailsAt tokens i e)
      ↔ IsBeginning (tokens.take i) ∧ ¬ IsBeginning (tokens.take (i + 1))) ∧
    (∀ i e, FailsAt tokens i e ↔ IsBeginning (tokens.take i) ∧
      ∃ token, tokens[i]? = some token ∧ Misfits (tokens.take i) token e) ∧
    (∀ other : List Token, other.map Token.shape = tokens.map Token.shape →
      ∀ i e, FailsAt other i e ↔ FailsAt tokens i e) ∧
    ((∃ c, pushAll {} tokens = .ok c) ↔ ∀ i e, ¬ FailsAt tokens i e) ∧
    (∀ c, pushAll {} tokens = .ok c →
      (∀ e, c.finish.2 = .error e ↔ EndsBadly tokens e) ∧
      ((∃ v, c.finish.2 = .ok v) ↔ ∀ e, ¬ EndsBadly tokens e)) := by
  refine ⟨?_, ?_, ?_, ?_, ?_⟩
  · intro i
    exact exists_failsAt_iff
  · intro i e
    exact failsAt_iff_misfits
  · intro other h i e
    exact failsAt_congr h
  · exact exists_pushAll_iff_forall_not_failsAt
  · intro c h
    exact ⟨fun _ => finish_eq_error_iff h, exists_finish_eq_ok_iff h⟩

end Calculation
end KeypadCalculator
