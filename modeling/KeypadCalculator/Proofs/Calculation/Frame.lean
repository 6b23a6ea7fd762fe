import KeypadCalculator.Proofs.Calculation.Derivation

/-!
# What happens in a group stays in it

The mark of an open group divides the stack. Tokens that are taken by a calculation of their own are
taken in the same way inside a group, and leave alone what is pending below its mark
(`Accepts.frame` for one token, `pushAll_frame` for a run). So a group can be calculated apart, and
it acts on the rest like the number that comes out (`group_acts_as_value`).
-/

namespace KeypadCalculator
namespace Calculation

open Expression (HasValue)

variable {c next : Calculation} {token : Token} {tokens : List Token} {v w : Float}
  {pending rest : List Pending} {negated : Bool}

/-! ## Above the mark of a group -/

/-- Carrying out stops at the mark of a group, so it only sees what is above it. -/
theorem reduce_append_group (p : Nat) (v : Float) (above : List Pending) (negated : Bool)
    (below : List Pending) : reduce p v (above ++ .group negated :: below)
      = ((reduce p v above).1, (reduce p v above).2 ++ .group negated :: below) := by
  induction above generalizing v with
  | nil => rfl
  | cons entry above ih =>
    cases entry with
    | group other => rfl
    | deferred left op =>
      rw [List.cons_append, reduce, reduce]
      split
      · rfl
      · exact ih (op.apply left v)

/-- A group that is open above the mark is closed as it would be without the mark. -/
theorem closeGroup_append_group (h : closeGroup v pending = some (w, rest)) (negated : Bool)
    (below : List Pending) : closeGroup v (pending ++ .group negated :: below)
      = some (w, rest ++ .group negated :: below) := by
  induction pending generalizing v with
  | nil => cases h
  | cons entry above ih =>
    cases entry with
    | group other =>
      obtain ⟨rfl, rfl⟩ := Prod.mk.inj (Option.some.inj h)
      rfl
    | deferred left op => exact ih h

/-- When no group is open above the mark, closing one carries out what is above, like the end of an
expression. -/
theorem closeGroup_of_unwind (h : unwind v pending = .ok w) (negated : Bool)
    (below : List Pending) : closeGroup v (pending ++ .group negated :: below)
      = some (signed negated w, below) := by
  induction pending generalizing v with
  | nil =>
    obtain rfl := Except.ok.inj h
    rfl
  | cons entry above ih =>
    cases entry with
    | group other => cases h
    | deferred left op => exact ih h

/-! ## Inside a group -/

/-- The calculation inside a group, over what was pending when the group was opened. -/
def inside (c : Calculation) (negated : Bool) (below : List Pending) : Calculation :=
  { c with pending := c.pending ++ .group negated :: below }

/-- **One token keeps to its group.** There is one case for each way to take a token. -/
theorem Accepts.frame (h : Accepts c token next) (negated : Bool) (below : List Pending) :
    Accepts (c.inside negated below) token (next.inside negated below) := by
  cases h with
  | number other v pending => exact .number other v _
  | plus other pending => exact .plus other _
  | minus other pending => exact .minus other _
  | openParen other pending => exact .openParen other _
  | operator v op pending =>
    have hop := Accepts.operator v op (pending ++ .group negated :: below)
    rw [reduce_append_group] at hop
    exact hop
  | closeParen hg => exact .closeParen (closeGroup_append_group hg negated below)

/-- What one token keeps, a run keeps. -/
theorem pushAll_frame (h : c.pushAll tokens = .ok next) (negated : Bool) (below : List Pending) :
    (c.inside negated below).pushAll tokens = .ok (next.inside negated below) := by
  refine pushAll_induction (motive := fun tokens next =>
    (c.inside negated below).pushAll tokens = .ok (next.inside negated below)) rfl ?_ h
  intro tokens before token next hrun haccepts
  exact pushAll_concat_eq_ok_iff.2 ⟨_, hrun, haccepts.frame negated below⟩

/-- The beginning of a run that makes no error makes none either. -/
theorem exists_pushAll_of_prefix {first : List Token} (h : c.pushAll tokens = .ok next)
    (hfirst : first <+: tokens) : ∃ before, c.pushAll first = .ok before := by
  obtain ⟨second, rfl⟩ := hfirst
  rw [pushAll_append] at h
  cases hrun : c.pushAll first with
  | ok before => exact ⟨before, rfl⟩
  | error e =>
    rw [hrun] at h
    cases h

/-! ## Groups and numbers -/

/-- An expression in parentheses is taken where an operand is awaited, and leaves its value. -/
theorem pushAll_group (h : HasValue tokens w) (negated : Bool) (pending : List Pending) :
    pushAll ⟨.awaited negated, pending⟩ (.openParen :: tokens ++ [.closeParen])
      = .ok ⟨.value (signed negated w), pending⟩ := by
  obtain ⟨⟨operand, above⟩, hrun, hvalue⟩ := exists_pushAll_of_hasValue h
  cases operand with
  -- an expression does not end where an operand is awaited
  | awaited other => cases hvalue
  | value v =>
    have hinside : pushAll ⟨.awaited false, .group negated :: pending⟩ tokens
        = .ok ⟨.value v, above ++ .group negated :: pending⟩ := pushAll_frame hrun negated pending
    rw [pushAll_concat_eq_ok_iff, pushAll_cons_of_accepts (.openParen negated pending)]
    exact ⟨_, hinside, .closeParen (closeGroup_of_unwind hvalue negated pending)⟩

/-- **A group acts exactly as its value, in any context.** Wherever an operand is awaited, with signs
before it or not and whatever is pending, an expression in parentheses is taken without an error and
leaves the operand and the stack that the number of its value leaves; so whatever follows comes to
the same. At no time inside the group is anything touched that was pending before it. -/
theorem group_acts_as_value (h : HasValue tokens w) (negated : Bool) (pending : List Pending) :
    let c : Calculation := ⟨.awaited negated, pending⟩
    (∃ next, c.pushAll (.openParen :: tokens ++ [.closeParen]) = .ok next ∧
      c.pushAll [.number w] = .ok next) ∧
    (∀ rest, c.pushAll (.openParen :: tokens ++ .closeParen :: rest)
      = c.pushAll (.number w :: rest)) ∧
    ∀ first, first <+: tokens → ∃ operand above,
      c.pushAll (.openParen :: first) = .ok ⟨operand, above ++ .group negated :: pending⟩ := by
  intro c
  have hgroup := pushAll_group h negated pending
  have hnumber : Accepts c (.number w) ⟨.value (signed negated w), pending⟩ :=
    .number negated w pending
  refine ⟨⟨_, hgroup, pushAll_singleton_eq_ok_iff.2 hnumber⟩, ?_, ?_⟩
  · intro rest
    have hsplit : .openParen :: tokens ++ .closeParen :: rest
        = (.openParen :: tokens ++ [.closeParen]) ++ rest := by simp
    rw [hsplit, pushAll_append, hgroup, pushAll_cons_of_accepts hnumber]
    rfl
  · intro first hfirst
    obtain ⟨last, hrun, -⟩ := exists_pushAll_of_hasValue h
    obtain ⟨before, hbefore⟩ := exists_pushAll_of_prefix hrun hfirst
    refine ⟨before.operand, before.pending, ?_⟩
    rw [pushAll_cons_of_accepts (.openParen negated pending)]
    exact pushAll_frame hbefore negated pending

/-- The group of `1 - (2 * -3)` after a minus, while a product in an open group waits for it. -/
theorem nested_group_acts_as_seven :
    let tokens : List Token := [.number 1, .operator .sub, .openParen, .number 2, .operator .mul,
      .operator .sub, .number 3, .closeParen]
    let c : Calculation := ⟨.awaited true, [.deferred 5 .mul, .group true]⟩
    HasValue tokens 7 ∧
    ∃ next, c.pushAll (.openParen :: tokens ++ [.closeParen]) = .ok next ∧
      c.pushAll [.number 7] = .ok next := by
  intro tokens c
  have hrun : pushAll {} tokens = .ok ⟨.value (-6), [.deferred 1 .sub]⟩ := by decide +kernel
  have hvalue : HasValue tokens 7 := hasValue_of_pushAll hrun (by decide +kernel)
  exact ⟨hvalue, (group_acts_as_value hvalue true [.deferred 5 .mul, .group true]).1⟩

end Calculation
end KeypadCalculator
