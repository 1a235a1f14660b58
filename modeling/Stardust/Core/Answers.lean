import Mathlib.Data.List.Basic

/-!
# Machines that answer requests

A machine answers each request and moves on. Two machines give the same answers to a
sequence of requests when a relation between their states, which may speak about the
requests still to come, makes them answer alike and is kept by what they do.
-/

namespace Stardust.Core

variable {State State' Request Answer : Type*}

/-- The answers to a sequence of requests, in order. -/
def answers (step : State → Request → Answer × State) : State → List Request → List Answer
  | _, [] => []
  | s, r :: rs => (step s r).1 :: answers step (step s r).2 rs

/-- Related machines give the same answers. -/
theorem answers_eq_of_simulation {step : State → Request → Answer × State}
    {step' : State' → Request → Answer × State'} {R : State → State' → List Request → Prop}
    (hstep : ∀ s s' r rs, R s s' (r :: rs) →
      (step s r).1 = (step' s' r).1 ∧ R (step s r).2 (step' s' r).2 rs)
    {s : State} {s' : State'} {rs : List Request} (h : R s s' rs) :
    answers step s rs = answers step' s' rs := by
  induction rs generalizing s s' with
  | nil => rfl
  | cons r rs ih =>
    obtain ⟨hanswer, hnext⟩ := hstep s s' r rs h
    rw [answers, answers, hanswer, ih hnext]

end Stardust.Core
