import KeypadCalculator.Proofs.Calculation.Steps

/-!
# Calculations and derivations

A calculation never sees a tree, but every state of it stands for a derivation that is under way.
Both directions between the two are proved here:

* `carries_of_derives`: the tokens of a derived phrase are taken, and what they leave at the top of
  the stack comes to the value of the phrase;
* `Awaits` and `Explains`: what a stack means for the tokens that led to it, namely which phrases
  are complete and which are still open; every run keeps this (`explains_of_pushAll`).

Together they say that a calculation has the value that the grammar gives
(`finish_eq_ok_iff_hasValue`).
-/

namespace KeypadCalculator

open Expression

/-! ## Operators inside phrases -/

/-- The operators between the parts of a phrase bind at least as tightly as this. There are none in a
factor. -/
def Expression.Phrase.bound : Phrase → Nat
  | .sum => 10
  | .product => 20
  | .factor | .atom => 30

theorem Operator.precedence_of_additive {op : Operator} (h : op.isAdditive = true) :
    op.precedence = Phrase.sum.bound := by
  cases op with
  | add | sub => rfl
  | mul | div | rem => cases h

theorem Operator.precedence_of_not_additive {op : Operator} (h : op.isAdditive = false) :
    op.precedence = Phrase.product.bound := by
  cases op with
  | add | sub => cases h
  | mul | div | rem => rfl

/-! ## Chains of signs -/

/-- Whether a chain of signs negates what follows it. -/
def Expression.negates (signs : List Operator) : Bool :=
  signs.count .sub % 2 == 1

/-- Each of two parts of a chain negates or does not, and the two together cancel. -/
theorem Expression.negates_append (first second : List Operator) :
    negates (first ++ second) = (negates first ^^ negates second) := by
  rw [negates, negates, negates, List.count_append]
  rcases Nat.mod_two_eq_zero_or_one (first.count .sub) with hf | hf <;>
    rcases Nat.mod_two_eq_zero_or_one (second.count .sub) with hs | hs <;>
      simp [Nat.add_mod, hf, hs]

namespace Calculation

/-! ## From derivations to calculations -/

/-- The tokens are taken where a phrase of the kind is awaited, and what they leave has the value
`v`. An atom may come after signs; any other phrase is awaited where no operator that it could
contain is pending, and it may leave operators of its own. -/
def Carries : Phrase → List Token → Float → Prop
  | .atom, tokens, v => ∀ negated pending,
      pushAll ⟨.awaited negated, pending⟩ tokens = .ok ⟨.value (signed negated v), pending⟩
  | .factor, tokens, v => ∀ pending,
      pushAll ⟨.awaited false, pending⟩ tokens = .ok ⟨.value v, pending⟩
  | phrase, tokens, v => ∀ pending, IsReduced phrase.bound pending →
      ∃ w later, pushAll ⟨.awaited false, pending⟩ tokens = .ok ⟨.value w, later⟩ ∧
        reduce phrase.bound w later = (v, pending)

/-- Signs are taken where an operand is awaited, and decide whether it is negated. -/
theorem pushAll_signs {signs : List Operator} (hs : ∀ s ∈ signs, s.isAdditive = true)
    (negated : Bool) (pending : List Pending) :
    pushAll ⟨.awaited negated, pending⟩ (signs.map .operator)
      = .ok ⟨.awaited (negated ^^ negates signs), pending⟩ := by
  induction signs generalizing negated with
  | nil =>
    rw [show negates [] = false from rfl, Bool.xor_false]
    rfl
  | cons sign rest ih =>
    have hrest : ∀ s ∈ rest, s.isAdditive = true := fun s h => hs s (List.mem_cons_of_mem _ h)
    rw [List.map_cons]
    cases sign with
    | add =>
      have hn : negates (.add :: rest) = (false ^^ negates rest) := negates_append [.add] rest
      rw [pushAll_cons_of_accepts (.plus negated pending), ih hrest, hn, Bool.false_xor]
    | sub =>
      have hn : negates (.sub :: rest) = (true ^^ negates rest) := negates_append [.sub] rest
      rw [pushAll_cons_of_accepts (.minus negated pending), ih hrest, hn, ← Bool.xor_assoc,
        Bool.xor_true]
    | mul | div | rem => exact absurd (hs _ (List.mem_cons_self ..)) Bool.false_ne_true

/-- After a left operand the operator waits, and the run goes on where its right operand is
awaited. -/
theorem pushAll_operator {c : Calculation} {left : List Token} {op : Operator} {w l : Float}
    {later pending : List Pending} (hrun : c.pushAll left = .ok ⟨.value w, later⟩)
    (hred : reduce op.precedence w later = (l, pending)) (right : List Token) :
    c.pushAll (left ++ .operator op :: right)
      = pushAll ⟨.awaited false, .deferred l op :: pending⟩ right := by
  have hop : Accepts ⟨.value w, later⟩ (.operator op)
      ⟨.awaited false, .deferred l op :: pending⟩ := by
    have := Accepts.operator w op later
    rwa [hred] at this
  rw [pushAll_append, hrun]
  exact pushAll_cons_of_accepts hop right

/-- **Derived phrases are carried out.** The induction is on the derivation; the stack below the
phrase is arbitrary, since a phrase may stand anywhere. -/
theorem carries_of_derives {phrase : Phrase} {tokens : List Token} {v : Float}
    (h : Derives phrase tokens v) : Carries phrase tokens v := by
  induction h with
  | number v =>
    intro negated pending
    exact pushAll_singleton_eq_ok_iff.2 (.number negated v pending)
  | @group tokens v h ih =>
    intro negated pending
    -- the mark of the group keeps the sum inside apart from what is pending outside
    obtain ⟨w, later, hrun, hred⟩ := ih (.group negated :: pending) trivial
    rw [pushAll_concat_eq_ok_iff]
    refine ⟨⟨.value w, later⟩, ?_, .closeParen ?_⟩
    · rw [pushAll_cons_of_accepts (.openParen negated pending)]
      exact hrun
    · rw [← closeGroup_reduce Phrase.sum.bound, hred]
      rfl
  | @factor signs tokens v hs h ih =>
    intro pending
    rw [pushAll_append, pushAll_signs hs, Bool.false_xor]
    exact ih (negates signs) pending
  | @ofFactor tokens v h ih =>
    intro pending hp
    exact ⟨v, pending, ih pending, reduce_of_isReduced hp v⟩
  | @scaled op left right l r hop hl hr ihl ihr =>
    intro pending hp
    have hbound : op.precedence = Phrase.product.bound := Operator.precedence_of_not_additive hop
    obtain ⟨w, later, hrun, hred⟩ := ihl pending hp
    refine ⟨r, .deferred l op :: pending, ?_, reduce_deferred (Nat.le_of_eq hbound.symm) hp l r⟩
    -- the operator itself carries the product to its left out, and then waits
    rw [pushAll_operator hrun (hbound ▸ hred)]
    exact ihr (.deferred l op :: pending)
  | @ofProduct tokens v h ih =>
    intro pending hp
    obtain ⟨w, later, hrun, hred⟩ := ih pending (hp.mono (by decide))
    refine ⟨w, later, hrun, ?_⟩
    rw [← reduce_reduce (p := Phrase.product.bound) (by decide), hred]
    exact reduce_of_isReduced hp v
  | @added op left right l r hop hl hr ihl ihr =>
    intro pending hp
    have hbound : op.precedence = Phrase.sum.bound := Operator.precedence_of_additive hop
    have hbelow : IsReduced Phrase.product.bound (.deferred l op :: pending) := by
      show op.precedence < Phrase.product.bound
      rw [hbound]
      decide
    obtain ⟨w, later, hrun, hred⟩ := ihl pending hp
    obtain ⟨w', later', hrun', hred'⟩ := ihr (.deferred l op :: pending) hbelow
    refine ⟨w', later', ?_, ?_⟩
    · rw [pushAll_operator hrun (hbound ▸ hred)]
      exact hrun'
    · -- the product to the right is completed first, and then the sum
      rw [← reduce_reduce (p := Phrase.product.bound) (by decide), hred']
      exact reduce_deferred (Nat.le_of_eq hbound.symm) hp l r

/-- The tokens of an expression are taken, and the value comes out at their end. -/
theorem exists_pushAll_of_hasValue {tokens : List Token} {v : Float} (h : HasValue tokens v) :
    ∃ c, pushAll {} tokens = .ok c ∧ c.outcome = .ok v := by
  obtain ⟨w, later, hrun, hred⟩ := carries_of_derives h [] trivial
  refine ⟨⟨.value w, later⟩, hrun, ?_⟩
  show unwind w later = .ok v
  rw [← unwind_reduce Phrase.sum.bound, hred]
  rfl

/-! ## From calculations to derivations -/

/-- `Awaits phrase before pending` says what a stack means: after the tokens `before` a phrase of the
kind is awaited, and `pending` is what will become of its value. -/
inductive Awaits : Phrase → List Token → List Pending → Prop
  /-- An expression is awaited at the start. -/
  | start : Awaits .sum [] []
  /-- An expression is awaited in a group, and the group with its signs is a factor. -/
  | group {signs : List Operator} {before : List Token} {pending : List Pending}
      (hs : ∀ s ∈ signs, s.isAdditive = true) (h : Awaits .factor before pending) :
      Awaits .sum (before ++ signs.map .operator ++ [.openParen])
        (.group (negates signs) :: pending)
  /-- A sum may begin with a product. -/
  | product {before : List Token} {pending : List Pending} (h : Awaits .sum before pending) :
      Awaits .product before pending
  /-- A product is awaited after plus or minus. -/
  | addend {op : Operator} {before left : List Token} {pending : List Pending} {l : Float}
      (hop : op.isAdditive = true) (h : Awaits .sum before pending) (hl : Derives .sum left l) :
      Awaits .product (before ++ left ++ [.operator op]) (.deferred l op :: pending)
  /-- A product may begin with a factor. -/
  | factor {before : List Token} {pending : List Pending} (h : Awaits .product before pending) :
      Awaits .factor before pending
  /-- A factor is awaited after any other operator. -/
  | multiplier {op : Operator} {before left : List Token} {pending : List Pending} {l : Float}
      (hop : op.isAdditive = false) (h : Awaits .product before pending)
      (hl : Derives .product left l) :
      Awaits .factor (before ++ left ++ [.operator op]) (.deferred l op :: pending)

/-- Below a phrase that is awaited no operator is pending that the phrase could contain. -/
theorem Awaits.isReduced {phrase : Phrase} {before : List Token} {pending : List Pending}
    (h : Awaits phrase before pending) : IsReduced phrase.bound pending := by
  induction h with
  | start | group => trivial
  | product h ih => exact ih.mono (by decide)
  | factor h ih => exact ih.mono (by decide)
  | @addend op before left pending l hop h hl ih =>
    show op.precedence < Phrase.product.bound
    rw [Operator.precedence_of_additive hop]
    decide
  | @multiplier op before left pending l hop h hl ih =>
    show op.precedence < Phrase.factor.bound
    rw [Operator.precedence_of_not_additive hop]
    decide

/-- `Stands phrase tokens v pending` says that the tokens end with a phrase of the kind, that its value
is `v`, and that the phrase was awaited over `pending`. -/
def Stands (phrase : Phrase) (tokens : List Token) (v : Float) (pending : List Pending) : Prop :=
  ∃ before body, tokens = before ++ body ∧ Awaits phrase before pending ∧ Derives phrase body v

variable {tokens : List Token} {v : Float} {pending : List Pending}

/-- A factor at the end completes a product, whose value is reached by carrying out what binds as
tightly as a product. -/
theorem Stands.product (h : Stands .factor tokens v pending) :
    Stands .product tokens (reduce Phrase.product.bound v pending).1
      (reduce Phrase.product.bound v pending).2 := by
  obtain ⟨before, body, rfl, hb, hd⟩ := h
  cases hb with
  | factor hp =>
    -- the factor is the first of its product
    rw [reduce_of_isReduced hp.isReduced]
    exact ⟨before, body, rfl, hp, .ofFactor hd⟩
  | @multiplier op before left pending l hop hp hl =>
    -- the operator before the factor is the only one left to carry out
    have hbound : op.precedence = Phrase.product.bound := Operator.precedence_of_not_additive hop
    rw [reduce_deferred (Nat.le_of_eq hbound.symm) hp.isReduced]
    refine ⟨before, left ++ .operator op :: body, ?_, hp, .scaled hop hl hd⟩
    simp only [List.append_assoc, List.cons_append, List.nil_append]

/-- A product at the end completes a sum, whose value is reached by carrying out everything back to
the innermost group. -/
theorem Stands.sum (h : Stands .product tokens v pending) :
    Stands .sum tokens (reduce Phrase.sum.bound v pending).1
      (reduce Phrase.sum.bound v pending).2 := by
  obtain ⟨before, body, rfl, hb, hd⟩ := h
  cases hb with
  | product hp =>
    rw [reduce_of_isReduced hp.isReduced]
    exact ⟨before, body, rfl, hp, .ofProduct hd⟩
  | @addend op before left pending l hop hp hl =>
    have hbound : op.precedence = Phrase.sum.bound := Operator.precedence_of_additive hop
    rw [reduce_deferred (Nat.le_of_eq hbound.symm) hp.isReduced]
    refine ⟨before, left ++ .operator op :: body, ?_, hp, .added hop hl hd⟩
    simp only [List.append_assoc, List.cons_append, List.nil_append]

/-- A factor at the end completes a sum as well. -/
theorem Stands.sum_of_factor (h : Stands .factor tokens v pending) :
    Stands .sum tokens (reduce Phrase.sum.bound v pending).1
      (reduce Phrase.sum.bound v pending).2 := by
  rw [← reduce_reduce (p := Phrase.product.bound) (by decide) v pending]
  exact h.product.sum

/-- A closing parenthesis after a sum completes the factor that the innermost group is. -/
theorem Stands.closeGroup {w : Float} {rest : List Pending} (h : Stands .sum tokens v pending)
    (hg : closeGroup v pending = some (w, rest)) :
    Stands .factor (tokens ++ [.closeParen]) w rest := by
  obtain ⟨before, body, rfl, hb, hd⟩ := h
  cases hb with
  | start => cases hg
  | @group signs before pending hs hb =>
    obtain ⟨rfl, rfl⟩ := Prod.mk.inj (Option.some.inj hg)
    refine ⟨before, signs.map .operator ++ (.openParen :: body ++ [.closeParen]), ?_, hb,
      .factor hs (.group hd)⟩
    simp only [List.append_assoc, List.cons_append, List.nil_append]

/-- A sum that no group encloses is the whole expression. -/
theorem Stands.hasValue {w : Float} (h : Stands .sum tokens v pending)
    (hw : unwind v pending = .ok w) : HasValue tokens w := by
  obtain ⟨before, body, rfl, hb, hd⟩ := h
  cases hb with
  | group hs hb => cases hw
  | start =>
    obtain rfl := Except.ok.inj hw
    exact hd

/-- How the tokens that were taken explain a calculation: what is complete of them, and what is still
awaited. -/
inductive Explains : List Token → Calculation → Prop
  /-- A factor is awaited, and some of its signs are there. -/
  | awaited {signs : List Operator} {before : List Token} {pending : List Pending}
      (hs : ∀ s ∈ signs, s.isAdditive = true) (h : Awaits .factor before pending) :
      Explains (before ++ signs.map .operator) ⟨.awaited (negates signs), pending⟩
  /-- The tokens end with a factor. -/
  | value {tokens : List Token} {v : Float} {pending : List Pending}
      (h : Stands .factor tokens v pending) : Explains tokens ⟨.value v, pending⟩

/-- A factor is awaited and none of its signs is there. -/
theorem Awaits.explains (h : Awaits .factor tokens pending) :
    Explains tokens ⟨.awaited false, pending⟩ := by
  have hnone : ∀ s ∈ ([] : List Operator), s.isAdditive = true :=
    fun _ hs => absurd hs List.not_mem_nil
  have := Explains.awaited hnone h
  rwa [List.map_nil, List.append_nil] at this

/-- One more sign leaves a factor awaited. -/
theorem Awaits.explains_sign {signs : List Operator} {before : List Token}
    (hs : ∀ s ∈ signs, s.isAdditive = true) (h : Awaits .factor before pending)
    (sign : Operator) (hsign : sign.isAdditive = true) :
    Explains (before ++ signs.map .operator ++ [.operator sign])
      ⟨.awaited (negates signs ^^ negates [sign]), pending⟩ := by
  have hall : ∀ s ∈ signs ++ [sign], s.isAdditive = true := by
    intro s hmem
    rcases List.mem_append.1 hmem with hmem | hmem
    · exact hs s hmem
    · rwa [List.mem_singleton.1 hmem]
  have := Explains.awaited hall h
  rwa [List.map_append, ← List.append_assoc, negates_append] at this

/-- **One token keeps the meaning of the stack.** There is one case for each way to take a token. -/
theorem Explains.step {c next : Calculation} {token : Token} (h : Explains tokens c)
    (ht : Accepts c token next) : Explains (tokens ++ [token]) next := by
  cases ht with
  | number negated v pending =>
    cases h with
    | @awaited signs before pending hs h =>
      refine .value ⟨before, signs.map .operator ++ [.number v], ?_, h, .factor hs (.number v)⟩
      rw [List.append_assoc]
  | plus negated pending =>
    cases h with
    | @awaited signs before pending hs h =>
      have := h.explains_sign hs .add rfl
      rwa [show negates [.add] = false from rfl, Bool.xor_false] at this
  | minus negated pending =>
    cases h with
    | @awaited signs before pending hs h =>
      have := h.explains_sign hs .sub rfl
      rwa [show negates [.sub] = true from rfl, Bool.xor_true] at this
  | openParen negated pending =>
    cases h with
    | @awaited signs before pending hs h =>
      exact (Awaits.group hs h).product.factor.explains
  | operator v op pending =>
    cases h with
    | value h =>
      apply Awaits.explains
      -- plus and minus complete the sum before them, any other operator only a product
      cases hop : op.isAdditive with
      | true =>
        rw [Operator.precedence_of_additive hop]
        obtain ⟨before, body, rfl, hb, hd⟩ := h.sum_of_factor
        exact (Awaits.addend hop hb hd).factor
      | false =>
        rw [Operator.precedence_of_not_additive hop]
        obtain ⟨before, body, rfl, hb, hd⟩ := h.product
        exact .multiplier hop hb hd
  | @closeParen v w pending rest hg =>
    cases h with
    | value h =>
      -- closing the group completes the sum in it first
      rw [← closeGroup_reduce Phrase.sum.bound] at hg
      exact .value (h.sum_of_factor.closeGroup hg)

/-- What one token keeps, a run keeps. -/
theorem explains_of_pushAll {c : Calculation} (h : pushAll {} tokens = .ok c) :
    Explains tokens c :=
  pushAll_induction (Awaits.start.product.factor.explains)
    (fun _ _ _ _ h ht => h.step ht) h

/-- A value at the end of the tokens is that of an expression which they are. -/
theorem hasValue_of_pushAll {c : Calculation} (h : pushAll {} tokens = .ok c)
    (hv : c.outcome = .ok v) : HasValue tokens v := by
  cases explains_of_pushAll h with
  -- there is no value while an operand is awaited
  | awaited hs h => cases hv
  | @value tokens w pending hstands =>
    change unwind w pending = .ok v at hv
    rw [← unwind_reduce Phrase.sum.bound] at hv
    exact hstands.sum_of_factor.hasValue hv

/-! ## The value of a run -/

/-- The tokens of an expression have one value. -/
theorem hasValue_unique {w : Float} (hv : HasValue tokens v) (hw : HasValue tokens w) : v = w := by
  obtain ⟨c, hrun, hc⟩ := exists_pushAll_of_hasValue hv
  obtain ⟨c', hrun', hc'⟩ := exists_pushAll_of_hasValue hw
  obtain rfl := Except.ok.inj (hrun.symm.trans hrun')
  exact Except.ok.inj (hc.symm.trans hc')

/-- **A calculation has the value that the grammar gives.** The tokens are taken without an error
and their end yields `v` exactly when they are an expression with the value `v`. -/
theorem finish_eq_ok_iff_hasValue (tokens : List Token) (v : Float) :
    (∃ c, pushAll {} tokens = .ok c ∧ c.finish.2 = .ok v) ↔ HasValue tokens v := by
  constructor
  · intro h
    rcases h with ⟨c, hrun, hv⟩
    exact hasValue_of_pushAll hrun hv
  · intro h
    exact exists_pushAll_of_hasValue h

end Calculation
end KeypadCalculator
