/-!
# Going step by step

A stepwise process has a state and answers every input. A run does not stop at an answer that
reports an error: the process goes on from the state that the error left.
-/

namespace KeypadCalculator.Stepwise

variable {σ ι α : Type} {step : σ → ι → σ × α} {s : σ}

/-- The state after all inputs. -/
def final (step : σ → ι → σ × α) (s : σ) (inputs : List ι) : σ :=
  inputs.foldl (fun s i => (step s i).1) s

/-- The answers to the inputs, one each. -/
def answers (step : σ → ι → σ × α) (s : σ) : List ι → List α
  | [] => []
  | i :: rest => (step s i).2 :: answers step (step s i).1 rest

theorem length_answers (step : σ → ι → σ × α) (s : σ) (inputs : List ι) :
    (answers step s inputs).length = inputs.length := by
  induction inputs generalizing s with
  | nil => rfl
  | cons i rest ih => rw [answers, List.length_cons, List.length_cons, ih]

/-- A run in two parts: the second goes on where the first ended. -/
theorem answers_append (step : σ → ι → σ × α) (s : σ) (first second : List ι) :
    answers step s (first ++ second)
      = answers step s first ++ answers step (final step s first) second := by
  induction first generalizing s with
  | nil => rfl
  | cons i rest ih => simp [answers, final, ih]

/-- The state after one input more. -/
theorem final_concat (inputs : List ι) (i : ι) :
    final step s (inputs ++ [i]) = (step (final step s inputs) i).1 := by
  rw [final, List.foldl_append]
  rfl

/-- The answers to one input more. -/
theorem answers_concat (inputs : List ι) (i : ι) :
    answers step s (inputs ++ [i]) = answers step s inputs ++ [(step (final step s inputs) i).2] :=
  answers_append step s inputs [i]

/-- After an input the run goes on from the state that the input has left, and from nothing else. -/
theorem answers_append_cons {next : σ} {before : List ι} {i : ι}
    (h : (step (final step s before) i).1 = next) (later : List ι) :
    answers step s (before ++ i :: later)
      = answers step s (before ++ [i]) ++ answers step next later := by
  rw [List.append_cons, answers_append, final_concat, h]

end KeypadCalculator.Stepwise
