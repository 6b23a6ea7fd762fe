import KeypadCalculator.Expression
import Mathlib.Data.List.Induction

/-!
# What one token does to a calculation

The facts about `push` and the stack below it on which everything else is built:

* `reduce_reduce`, `closeGroup_reduce`, `unwind_reduce`: work that is carried out early is not
  missed later, because it would have been carried out first anyway;
* `openGroups`, the number of groups a stack has open, with what each operation and each token does
  to it;
* `Accepts` and `Rejects`: the tokens that are taken and those that are not, with what they leave
  (`push_eq_ok_iff`, `push_eq_error_iff`);
* `pushAll_append` and `pushAll_induction`, which carry single tokens over to runs.
-/

namespace KeypadCalculator
namespace Calculation

/-! ## Carrying out in parts -/

/-- **Early work is not missed.** Whatever would begin by carrying out the operators that bind as
tightly as `p` comes to the same when they are carried out before it. -/
theorem apply_reduce {α : Type} {p : Nat} {f : Float → List Pending → α}
    (hf : ∀ left op v rest, p ≤ Operator.precedence op →
      f v (.deferred left op :: rest) = f (op.apply left v) rest)
    (v : Float) (pending : List Pending) :
    f (reduce p v pending).1 (reduce p v pending).2 = f v pending := by
  induction pending generalizing v with
  | nil => rfl
  | cons entry rest ih =>
    cases entry with
    | group negated => rfl
    | deferred left op =>
      by_cases hp : op.precedence < p
      · -- the operator waits on, and so does everything below it
        rw [reduce, if_pos hp]
      · -- the operator is carried out, as `f` would have done
        have hop : p ≤ op.precedence := Nat.le_of_not_lt hp
        rw [reduce, if_neg hp, ih, hf left op v rest hop]

/-- Carrying out what binds tightly first, and then what binds less tightly, is carrying out all of
it at once. -/
theorem reduce_reduce {p q : Nat} (h : q ≤ p) (v : Float) (pending : List Pending) :
    reduce q (reduce p v pending).1 (reduce p v pending).2 = reduce q v pending := by
  apply apply_reduce
  intro left op v rest hp
  rw [reduce, if_neg (by omega)]

/-- Closing a group carries out what was not carried out before. -/
theorem closeGroup_reduce (p : Nat) (v : Float) (pending : List Pending) :
    closeGroup (reduce p v pending).1 (reduce p v pending).2 = closeGroup v pending :=
  apply_reduce (fun _ _ _ _ _ => rfl) v pending

/-- The end of an expression carries out what was not carried out before. -/
theorem unwind_reduce (p : Nat) (v : Float) (pending : List Pending) :
    unwind (reduce p v pending).1 (reduce p v pending).2 = unwind v pending :=
  apply_reduce (fun _ _ _ _ _ => rfl) v pending

/-- The operator at the top of the stack, if there is one, binds less tightly than `p`. -/
def IsReduced (p : Nat) : List Pending → Prop
  | .deferred _ op :: _ => op.precedence < p
  | _ => True

/-- Where nothing binds tightly enough, nothing is carried out. -/
theorem reduce_of_isReduced {p : Nat} {pending : List Pending} (h : IsReduced p pending)
    (v : Float) : reduce p v pending = (v, pending) := by
  cases pending with
  | nil => rfl
  | cons entry rest =>
    cases entry with
    | group negated => rfl
    | deferred left op => exact if_pos h

theorem IsReduced.mono {p q : Nat} {pending : List Pending} (h : IsReduced p pending)
    (hpq : p ≤ q) : IsReduced q pending := by
  cases pending with
  | nil => trivial
  | cons entry rest =>
    cases entry with
    | group negated => trivial
    | deferred left op => exact Nat.lt_of_lt_of_le h hpq

/-- An operator that binds tightly enough is carried out, and nothing more if what lies below it
binds less tightly. -/
theorem reduce_deferred {p : Nat} {op : Operator} {pending : List Pending} (h : p ≤ op.precedence)
    (hp : IsReduced p pending) (left v : Float) :
    reduce p v (.deferred left op :: pending) = (op.apply left v, pending) := by
  rw [reduce, if_neg (by omega)]
  exact reduce_of_isReduced hp (op.apply left v)

/-! ## Open groups -/

/-- The number of groups that a stack has open. -/
def openGroups : List Pending → Nat
  | [] => 0
  | .deferred _ _ :: rest => openGroups rest
  | .group _ :: rest => openGroups rest + 1

/-- Carrying out stops at a group, so it closes none. -/
theorem openGroups_reduce (p : Nat) (v : Float) (pending : List Pending) :
    openGroups (reduce p v pending).2 = openGroups pending :=
  apply_reduce (f := fun _ => openGroups) (fun _ _ _ _ _ => rfl) v pending

/-- A closing parenthesis finds no group exactly when none is open. -/
theorem closeGroup_eq_none_iff (v : Float) (pending : List Pending) :
    closeGroup v pending = none ↔ openGroups pending = 0 := by
  induction pending generalizing v with
  | nil => simp [closeGroup, openGroups]
  | cons entry rest ih =>
    cases entry with
    | group negated => simp [closeGroup, openGroups]
    | deferred left op => exact ih (op.apply left v)

/-- A closing parenthesis closes one group. -/
theorem openGroups_of_closeGroup {v w : Float} {pending rest : List Pending}
    (h : closeGroup v pending = some (w, rest)) : openGroups pending = openGroups rest + 1 := by
  induction pending generalizing v with
  | nil => simp [closeGroup] at h
  | cons entry below ih =>
    cases entry with
    | group negated =>
      simp only [closeGroup, Option.some.injEq, Prod.mk.injEq] at h
      rw [openGroups, h.2]
    | deferred left op => exact ih h

/-- The only thing that can be wrong at the end of an expression is an open group. -/
theorem unwind_eq_error_iff (v : Float) (pending : List Pending) (e : SyntaxError) :
    unwind v pending = .error e ↔ e = .unclosed ∧ 0 < openGroups pending := by
  induction pending generalizing v with
  | nil => simp [unwind, openGroups]
  | cons entry rest ih =>
    cases entry with
    | group negated => simp [unwind, openGroups, eq_comm]
    | deferred left op => exact ih (op.apply left v)

/-! ## Single tokens -/

/-- The tokens that a calculation takes, and what it is afterwards. -/
inductive Accepts : Calculation → Token → Calculation → Prop
  /-- A number is the operand that was awaited. -/
  | number (negated : Bool) (v : Float) (pending : List Pending) :
      Accepts ⟨.awaited negated, pending⟩ (.number v) ⟨.value (signed negated v), pending⟩
  /-- A plus before an operand changes nothing. -/
  | plus (negated : Bool) (pending : List Pending) :
      Accepts ⟨.awaited negated, pending⟩ (.operator .add) ⟨.awaited negated, pending⟩
  /-- A minus before an operand negates it, or no longer negates it. -/
  | minus (negated : Bool) (pending : List Pending) :
      Accepts ⟨.awaited negated, pending⟩ (.operator .sub) ⟨.awaited (!negated), pending⟩
  /-- A group is opened where an operand is awaited. -/
  | openParen (negated : Bool) (pending : List Pending) :
      Accepts ⟨.awaited negated, pending⟩ .openParen ⟨.awaited false, .group negated :: pending⟩
  /-- An operator after an operand waits, once what binds as tightly is carried out. -/
  | operator (v : Float) (op : Operator) (pending : List Pending) :
      Accepts ⟨.value v, pending⟩ (.operator op)
        ⟨.awaited false, .deferred (reduce op.precedence v pending).1 op
          :: (reduce op.precedence v pending).2⟩
  /-- The innermost group is closed after an operand. -/
  | closeParen {v w : Float} {pending rest : List Pending}
      (h : closeGroup v pending = some (w, rest)) :
      Accepts ⟨.value v, pending⟩ .closeParen ⟨.value w, rest⟩

/-- The tokens that a calculation does not take, why, and what it is afterwards. -/
inductive Rejects : Calculation → Token → SyntaxError → Calculation → Prop
  /-- An operator that is no sign stands where an operand is awaited. -/
  | operator (negated : Bool) {op : Operator} (h : op.isAdditive = false)
      (pending : List Pending) :
      Rejects ⟨.awaited negated, pending⟩ (.operator op) .numberExpected
        ⟨.awaited negated, pending⟩
  /-- A group is closed where an operand is awaited. -/
  | closeParen (negated : Bool) (pending : List Pending) :
      Rejects ⟨.awaited negated, pending⟩ .closeParen .numberExpected ⟨.awaited negated, pending⟩
  /-- A number follows an operand. -/
  | number (v w : Float) (pending : List Pending) :
      Rejects ⟨.value v, pending⟩ (.number w) .operatorExpected ⟨.value v, pending⟩
  /-- A group follows an operand. -/
  | openParen (v : Float) (pending : List Pending) :
      Rejects ⟨.value v, pending⟩ .openParen .operatorExpected ⟨.value v, pending⟩
  /-- A group is closed and none is open. What was pending is lost. -/
  | unbalanced (v : Float) {pending : List Pending} (h : openGroups pending = 0) :
      Rejects ⟨.value v, pending⟩ .closeParen .unbalanced ⟨.value v, []⟩

variable {c next : Calculation} {token : Token} {e : SyntaxError}

/-- A token that is answered without an error is one of those that are taken. -/
theorem accepts_of_push (h : c.push token = (next, .ok ())) : Accepts c token next := by
  obtain ⟨operand, pending⟩ := c
  cases operand with
  | awaited negated =>
    cases token with
    | number v =>
      obtain rfl := congrArg Prod.fst h
      exact .number negated v pending
    | operator op =>
      cases op with
      | add =>
        obtain rfl := congrArg Prod.fst h
        exact .plus negated pending
      | sub =>
        obtain rfl := congrArg Prod.fst h
        exact .minus negated pending
      -- only plus and minus are signs
      | mul | div | rem => cases congrArg Prod.snd h
    | openParen =>
      obtain rfl := congrArg Prod.fst h
      exact .openParen negated pending
    | closeParen => cases congrArg Prod.snd h
  | value v =>
    cases token with
    | number w => cases congrArg Prod.snd h
    | operator op =>
      obtain rfl := congrArg Prod.fst h
      exact .operator v op pending
    | openParen => cases congrArg Prod.snd h
    | closeParen =>
      cases hg : closeGroup v pending with
      | none =>
        simp only [push, hg] at h
        cases congrArg Prod.snd h
      | some closed =>
        simp only [push, hg] at h
        obtain rfl := congrArg Prod.fst h
        exact .closeParen hg

/-- A token that is answered with an error is one of those that are not taken. -/
theorem rejects_of_push (h : c.push token = (next, .error e)) : Rejects c token e next := by
  obtain ⟨operand, pending⟩ := c
  cases operand with
  | awaited negated =>
    cases token with
    | operator op =>
      cases op with
      | add | sub => cases congrArg Prod.snd h
      | mul | div | rem =>
        obtain ⟨rfl, he⟩ := Prod.mk.inj h
        obtain rfl := Except.error.inj he
        exact .operator negated rfl pending
    | closeParen =>
      obtain ⟨rfl, he⟩ := Prod.mk.inj h
      obtain rfl := Except.error.inj he
      exact .closeParen negated pending
    | number _ | openParen => cases congrArg Prod.snd h
  | value v =>
    cases token with
    | number w =>
      obtain ⟨rfl, he⟩ := Prod.mk.inj h
      obtain rfl := Except.error.inj he
      exact .number v w pending
    | openParen =>
      obtain ⟨rfl, he⟩ := Prod.mk.inj h
      obtain rfl := Except.error.inj he
      exact .openParen v pending
    | operator op => cases congrArg Prod.snd h
    | closeParen =>
      cases hg : closeGroup v pending with
      | some closed =>
        simp only [push, hg] at h
        cases congrArg Prod.snd h
      | none =>
        simp only [push, hg] at h
        obtain ⟨rfl, he⟩ := Prod.mk.inj h
        obtain rfl := Except.error.inj he
        exact .unbalanced v ((closeGroup_eq_none_iff v pending).1 hg)

/-- The tokens that are taken are answered without an error. -/
theorem Accepts.push_eq (h : Accepts c token next) : c.push token = (next, .ok ()) := by
  cases h with
  | closeParen hg => simp only [push, hg]
  | number | plus | minus | openParen | operator => rfl

/-- The tokens that are not taken are answered with their error. -/
theorem Rejects.push_eq (h : Rejects c token e next) : c.push token = (next, .error e) := by
  cases h with
  | @operator negated op hop pending =>
    cases op with
    | add | sub => cases hop
    | mul | div | rem => rfl
  | unbalanced v hg => simp only [push, (closeGroup_eq_none_iff v _).2 hg]
  | closeParen | number | openParen => rfl

/-- What is answered without an error, in full. -/
theorem push_eq_ok_iff : c.push token = (next, .ok ()) ↔ Accepts c token next :=
  ⟨accepts_of_push, Accepts.push_eq⟩

/-- What is answered with an error, in full. -/
theorem push_eq_error_iff : c.push token = (next, .error e) ↔ Rejects c token e next :=
  ⟨rejects_of_push, Rejects.push_eq⟩

/-- A token that is taken opens a group or closes one exactly when it is a parenthesis. -/
theorem Accepts.openGroups_add_count (h : Accepts c token next) :
    openGroups next.pending + [token].count .closeParen
      = openGroups c.pending + [token].count .openParen := by
  cases h with
  | number negated v pending => rfl
  | plus negated pending | minus negated pending => rfl
  | openParen negated pending => rfl
  | operator v op pending => exact openGroups_reduce op.precedence v pending
  | closeParen hg => exact (openGroups_of_closeGroup hg).symm

/-- A token that is not taken leaves as many groups open as there were. -/
theorem Rejects.openGroups_eq (h : Rejects c token e next) :
    openGroups next.pending = openGroups c.pending := by
  cases h with
  -- what was pending is lost, but there was no group
  | unbalanced v hnone => exact hnone.symm
  | operator | closeParen | number | openParen => rfl

/-! ## Runs -/

/-- A run of one token more goes on where the run before it ended. -/
theorem pushAll_append (c : Calculation) (first second : List Token) :
    c.pushAll (first ++ second) = (c.pushAll first).bind (·.pushAll second) := by
  induction first generalizing c with
  | nil => rfl
  | cons token rest ih =>
    rw [List.cons_append, pushAll, pushAll]
    split
    · -- after an error no token counts
      rfl
    · exact ih _

/-- A run that begins with a token that is taken goes on from what the token leaves. -/
theorem pushAll_cons_of_accepts (h : Accepts c token next) (tokens : List Token) :
    c.pushAll (token :: tokens) = next.pushAll tokens := by
  rw [pushAll, h.push_eq]

theorem pushAll_singleton_eq_ok_iff : c.pushAll [token] = .ok next ↔ Accepts c token next := by
  rw [← push_eq_ok_iff, pushAll]
  split
  · rename_i hp
    simp [hp]
  · rename_i hp
    simp [hp, pushAll]

/-- A run that ends with `token` takes the tokens before it and then `token`. -/
theorem pushAll_concat_eq_ok_iff {tokens : List Token} :
    c.pushAll (tokens ++ [token]) = .ok next
      ↔ ∃ before, c.pushAll tokens = .ok before ∧ Accepts before token next := by
  rw [pushAll_append]
  cases c.pushAll tokens with
  | error e => simp [Except.bind]
  | ok before => simp [Except.bind, pushAll_singleton_eq_ok_iff]

/-- What holds at first and is kept by every token that is taken holds after every run without an
error; `motive` may speak of the tokens that were taken. -/
theorem pushAll_induction {motive : List Token → Calculation → Prop} (start : motive [] c)
    (step : ∀ tokens c token next, motive tokens c → Accepts c token next →
      motive (tokens ++ [token]) next)
    {tokens : List Token} (h : c.pushAll tokens = .ok next) : motive tokens next := by
  -- from the end, because that is where `motive` gets its tokens
  induction tokens using List.reverseRecOn generalizing next with
  | nil =>
    obtain rfl := Except.ok.inj h
    exact start
  | append_singleton tokens token ih =>
    obtain ⟨before, hb, ht⟩ := pushAll_concat_eq_ok_iff.1 h
    exact step tokens before token next (ih hb) ht

end Calculation
end KeypadCalculator
