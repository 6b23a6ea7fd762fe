import Mathlib
import KeypadCalculator.Proofs.Calculation.Recovery

/-!
# How much can be pending

The marks of open groups divide the stack into stretches of operators that wait (`stretches`). In
each of them an operator binds more tightly than the one below it (`InOrder`): an operator that
comes in first carries out whatever binds as tightly, and everything else that is done takes entries
off the top and leaves the order below alone (`Accepts.inOrder`). As there are two precedences, a
stretch has two operators at most, and little is pending as long as few groups are open.

How many groups are open is told by the parentheses that were taken since the last end of an
expression, whatever errors there were in between (`openGroups_final`).

`pending_stays_in_order` puts these together.
-/

namespace KeypadCalculator

/-- The operator of an entry that waits for its right operand; the mark of a group has none. -/
def Pending.operator? : Pending → Option Operator
  | deferred _ op => some op
  | group _ => none

namespace Calculation

open Stepwise (answers final answers_concat final_concat length_answers)

variable {c next : Calculation} {token : Token} {e : SyntaxError} {pending rest : List Pending}
  {stretch : List Operator} {left v w : Float} {op : Operator} {negated : Bool}
  {inputs : List Input}

/-! ## Stretches -/

/-- The operators between the marks of two groups, and those above the last and below the first
mark, the latest first. -/
def stretches (pending : List Pending) : List (List Operator) :=
  (pending.splitOnP fun entry => entry.operator?.isNone).map (List.filterMap Pending.operator?)

theorem stretches_nil : stretches [] = [[]] := by
  rw [stretches, List.splitOnP_nil]
  rfl

/-- A mark begins a new stretch. -/
theorem stretches_group : stretches (.group negated :: rest) = [] :: stretches rest := by
  rw [stretches, List.splitOnP_cons_eq_if_modifyHead]
  rfl

/-- An operator belongs to the stretch above the last mark. -/
theorem stretches_deferred :
    stretches (.deferred left op :: rest) = (stretches rest).modifyHead (op :: ·) := by
  rw [stretches, List.splitOnP_cons_eq_if_modifyHead, stretches]
  cases rest.splitOnP fun entry => entry.operator?.isNone with
  | nil => rfl
  | cons first others => rfl

theorem exists_stretches_eq_cons (pending : List Pending) :
    ∃ first others, stretches pending = first :: others := by
  apply List.exists_cons_of_ne_nil
  rw [stretches, Ne, List.map_eq_nil_iff]
  exact List.splitOnP_ne_nil _ pending

/-- There is one stretch more than there are marks. -/
theorem length_stretches (pending : List Pending) :
    (stretches pending).length = openGroups pending + 1 := by
  induction pending with
  | nil => rw [stretches_nil]; rfl
  | cons entry rest ih =>
    cases entry with
    | group negated => rw [stretches_group, List.length_cons, ih, openGroups]
    | deferred left op => rw [stretches_deferred, List.length_modifyHead, ih, openGroups]

/-- Every entry is a mark or belongs to a stretch. -/
theorem length_eq_openGroups_add_sum (pending : List Pending) :
    pending.length = openGroups pending + ((stretches pending).map List.length).sum := by
  induction pending with
  | nil => rw [stretches_nil]; rfl
  | cons entry rest ih =>
    cases entry with
    | group negated =>
      rw [stretches_group, List.map_cons, List.sum_cons, List.length_cons, openGroups, ih,
        List.length_nil]
      omega
    | deferred left op =>
      obtain ⟨first, others, hstretches⟩ := exists_stretches_eq_cons rest
      rw [hstretches, List.map_cons, List.sum_cons] at ih
      rw [stretches_deferred, hstretches, List.modifyHead_cons, List.map_cons, List.sum_cons,
        List.length_cons, List.length_cons, openGroups, ih]
      omega

/-! ## Order -/

/-- In every stretch each operator binds more tightly than the one below it. -/
def InOrder (pending : List Pending) : Prop :=
  ∀ stretch ∈ stretches pending, (stretch.map Operator.precedence).IsChain (· > ·)

theorem inOrder_nil : InOrder [] := by
  simp [InOrder, stretches_nil]

/-- A group may be opened on anything. -/
theorem inOrder_group_iff : InOrder (.group negated :: rest) ↔ InOrder rest := by
  simp [InOrder, stretches_group]

/-- An operator has to bind more tightly than the top of what it is put on. -/
theorem inOrder_deferred_iff : InOrder (.deferred left op :: rest) ↔
    IsReduced op.precedence rest ∧ InOrder rest := by
  cases rest with
  | nil => simp [InOrder, stretches_deferred, stretches_nil, IsReduced]
  | cons entry below =>
    cases entry with
    | group negated => simp [InOrder, stretches_deferred, stretches_group, IsReduced]
    | deferred left' op' =>
      obtain ⟨first, others, hstretches⟩ := exists_stretches_eq_cons below
      simp [InOrder, stretches_deferred, hstretches, IsReduced, and_assoc]

/-- The lower end of a stack in order is in order. -/
theorem InOrder.of_suffix (h : InOrder pending) (hrest : rest <:+ pending) : InOrder rest := by
  obtain ⟨above, rfl⟩ := hrest
  induction above with
  | nil => exact h
  | cons entry above ih =>
    cases entry with
    | group negated => exact ih (inOrder_group_iff.1 h)
    | deferred left op => exact ih (inOrder_deferred_iff.1 h).2

/-- A stretch in order has different precedences, of which there are two. -/
theorem InOrder.length_le (h : InOrder pending) (hstretch : stretch ∈ stretches pending) :
    stretch.length ≤ 2 := by
  have hpairwise := List.isChain_iff_pairwise.1 (h stretch hstretch)
  have hnodup : (stretch.map Operator.precedence).Nodup := hpairwise.imp ne_of_gt
  have hsubset : stretch.map Operator.precedence ⊆ [10, 20] := by
    intro p hp
    obtain ⟨op, -, rfl⟩ := List.mem_map.1 hp
    cases op <;> decide
  have hlength := (List.subperm_of_subset hnodup hsubset).length_le
  rwa [List.length_map] at hlength

/-- What is in order is small as long as few groups are open. -/
theorem InOrder.length_le_openGroups (h : InOrder pending) :
    pending.length ≤ 3 * openGroups pending + 2 := by
  have hsum : ((stretches pending).map List.length).sum ≤ (openGroups pending + 1) * 2 := by
    rw [← length_stretches, ← List.length_map List.length, ← Nat.nsmul_eq_mul]
    apply List.sum_le_card_nsmul
    intro n hn
    obtain ⟨stretch, hstretch, rfl⟩ := List.mem_map.1 hn
    exact h.length_le hstretch
  rw [length_eq_openGroups_add_sum]
  omega

/-! ## What is left on the stack -/

/-- Carrying out takes entries off the top. -/
theorem reduce_suffix (p : Nat) (v : Float) (pending : List Pending) :
    (reduce p v pending).2 <:+ pending := by
  induction pending generalizing v with
  | nil => exact List.suffix_refl []
  | cons entry rest ih =>
    cases entry with
    | group negated => exact List.suffix_refl _
    | deferred left op =>
      rw [reduce]
      split
      · exact List.suffix_refl _
      · exact (ih (op.apply left v)).trans (List.suffix_cons ..)

/-- Carrying out does not stop before it is done. -/
theorem isReduced_reduce (p : Nat) (v : Float) (pending : List Pending) :
    IsReduced p (reduce p v pending).2 := by
  induction pending generalizing v with
  | nil => trivial
  | cons entry rest ih =>
    cases entry with
    | group negated => trivial
    | deferred left op =>
      by_cases hp : op.precedence < p
      · rw [reduce, if_pos hp]
        exact hp
      · rw [reduce, if_neg hp]
        exact ih (op.apply left v)

/-- Closing a group takes entries off the top. -/
theorem closeGroup_suffix (h : closeGroup v pending = some (w, rest)) : rest <:+ pending := by
  induction pending generalizing v with
  | nil => cases h
  | cons entry below ih =>
    cases entry with
    | group negated =>
      obtain ⟨-, rfl⟩ := Prod.mk.inj (Option.some.inj h)
      exact List.suffix_cons ..
    | deferred left op => exact (ih h).trans (List.suffix_cons ..)

/-- **One token keeps the order.** Only an operator has to do something for it. -/
theorem Accepts.inOrder (h : Accepts c token next) (hc : InOrder c.pending) :
    InOrder next.pending := by
  cases h with
  | number negated v pending => exact hc
  | plus negated pending | minus negated pending => exact hc
  | openParen negated pending => exact inOrder_group_iff.2 hc
  | operator v op pending =>
    exact inOrder_deferred_iff.2
      ⟨isReduced_reduce op.precedence v pending, hc.of_suffix (reduce_suffix ..)⟩
  | closeParen hg => exact hc.of_suffix (closeGroup_suffix hg)

/-- What one token keeps, a run keeps, and errors lead to no other stacks. -/
theorem inOrder_final (inputs : List Input) : InOrder (final step {} inputs).pending := by
  obtain ⟨tokens, htokens⟩ := exists_pushAll_eq_final inputs
  exact pushAll_induction (motive := fun _ c => InOrder c.pending) inOrder_nil
    (fun _ _ _ _ hc haccepts => haccepts.inOrder hc) htokens

/-! ## Open groups -/

/-- The tokens that a run has taken since the last end of an expression: those after the last
`finish` that were not answered with an error. -/
def takenSinceFinish (inputs : List Input) : List Token :=
  let answered := inputs.zip (answers step {} inputs)
  (answered.rtakeWhile fun entry => entry.1 != .finish).filterMap fun
    | (.token token, .ok _) => some token
    | _ => none

theorem zip_answers_concat (inputs : List Input) (i : Input) :
    (inputs ++ [i]).zip (answers step {} (inputs ++ [i]))
      = inputs.zip (answers step {} inputs) ++ [(i, (step (final step {} inputs) i).2)] := by
  rw [answers_concat, List.zip_append (length_answers ..).symm]
  rfl

theorem takenSinceFinish_finish : takenSinceFinish (inputs ++ [.finish]) = [] := by
  rw [takenSinceFinish, zip_answers_concat]
  simp

theorem takenSinceFinish_of_accepts (h : Accepts (final step {} inputs) token next) :
    takenSinceFinish (inputs ++ [.token token]) = takenSinceFinish inputs ++ [token] := by
  rw [takenSinceFinish, zip_answers_concat]
  simp [step, h.push_eq, takenSinceFinish, Except.map]

theorem takenSinceFinish_of_rejects (h : Rejects (final step {} inputs) token e next) :
    takenSinceFinish (inputs ++ [.token token]) = takenSinceFinish inputs := by
  rw [takenSinceFinish, zip_answers_concat]
  simp [step, h.push_eq, takenSinceFinish, Except.map]

/-- **The groups that are open are those that were opened and not closed** since the last end of an
expression; a parenthesis that was refused has done neither. -/
theorem openGroups_final (inputs : List Input) :
    openGroups (final step {} inputs).pending + (takenSinceFinish inputs).count .closeParen
      = (takenSinceFinish inputs).count .openParen := by
  induction inputs using List.reverseRecOn with
  | nil => rfl
  | append_singleton inputs i ih =>
    rw [final_concat]
    cases i with
    | finish =>
      rw [takenSinceFinish_finish]
      rfl
    | token token =>
      cases hpush : push (final step {} inputs) token with
      | mk next answer =>
        have hnext : (step (final step {} inputs) (.token token)).1 = next :=
          congrArg Prod.fst hpush
        rw [hnext]
        cases answer with
        | ok _ =>
          have haccepts := push_eq_ok_iff.1 hpush
          have hcount := haccepts.openGroups_add_count
          rw [takenSinceFinish_of_accepts haccepts, List.count_append, List.count_append]
          omega
        | error e =>
          have hrejects := push_eq_error_iff.1 hpush
          rw [takenSinceFinish_of_rejects hrejects, hrejects.openGroups_eq, ih]

/-! ## All together -/

/-- **What is pending stays in order, and there is little of it.** In every run, whatever errors
there were, at most two operators wait between the marks of two groups, above the last or below the
first mark, and a later one binds more tightly than an earlier one. The marks are as many as the
groups that were opened and not closed since the last end of an expression; with `g` of them there
are at most `3 * g + 2` entries. -/
theorem pending_stays_in_order (inputs : List Input) :
    let c := final step {} inputs
    let taken := takenSinceFinish inputs
    (∀ stretch ∈ stretches c.pending,
      stretch.length ≤ 2 ∧ (stretch.map Operator.precedence).Pairwise (· > ·)) ∧
    openGroups c.pending + taken.count .closeParen = taken.count .openParen ∧
    c.pending.length ≤ 3 * openGroups c.pending + 2 := by
  intro c taken
  have horder : InOrder c.pending := inOrder_final inputs
  refine ⟨fun stretch hstretch => ⟨horder.length_le hstretch, ?_⟩, openGroups_final inputs,
    horder.length_le_openGroups⟩
  exact List.isChain_iff_pairwise.1 (horder stretch hstretch)

-- a product waits for a sum in a group and outside it, and the bound is met
example : (final step {} ([.number 1, .operator .add, .number 2, .operator .mul, .openParen,
    .number 3, .operator .add, .number 4, .operator .mul].map .token)).pending.length
    = 3 * 1 + 2 := by
  decide +kernel

end Calculation
end KeypadCalculator
