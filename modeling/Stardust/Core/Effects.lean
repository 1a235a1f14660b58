import Mathlib.Order.Defs.Unbundled

/-!
# Effects on a shared state

A computation on a state keeps a preorder when every run relates the state before to
the state after, so frame conditions compose along sequencing. Computations that may
panic keep the state they had reached, and a deferred recover turns a panic into an
ordinary return of the zero results.
-/

namespace Stardust.Core

section Keeps

variable {S α β : Type} {R : S → S → Prop}

/-- Every run of the computation relates its two states. -/
def Keeps (R : S → S → Prop) (m : StateM S α) : Prop := ∀ s, R s (m.run s).2

/-- Returning a value changes nothing. -/
theorem Keeps.pure [Std.Refl R] (a : α) : Keeps R (pure a : StateM S α) := fun s => refl_of R s

/-- Sequencing composes what both parts keep. -/
theorem Keeps.bind [IsTrans S R] {m : StateM S α} {f : α → StateM S β} (hm : Keeps R m)
    (hf : ∀ a, Keeps R (f a)) : Keeps R (m >>= f) := by
  intro s
  exact trans_of R (hm s) (hf (m.run s).1 (m.run s).2)

/-- Only the first part counts when the second leaves the state alone. -/
theorem Keeps.run_bind_snd {m : StateM S α} {f : α → StateM S β} (hf : ∀ a, Keeps Eq (f a))
    (s : S) : ((m >>= f).run s).2 = (m.run s).2 := (hf (m.run s).1 (m.run s).2).symm

/-- Dropping the result changes nothing. -/
theorem Keeps.discard {m : StateM S α} (hm : Keeps R m) : Keeps R (discard m) := hm

end Keeps

section Panic

variable {S P α β : Type}

/-- A computation on the state `S` that may panic with a value of `P`. -/
abbrev Go (S P : Type) := ExceptT P (StateM S)

/-- The outcome and the state in which the computation left. -/
def Go.exec (m : Go S P α) (s : S) : Except P α × S := StateT.run (ExceptT.run m) s

/-- Run the body under a deferred function that recovers, cleans up, and leaves the results
at their zero values. -/
def deferRecover (zero : α) (cleanup : Go S P Unit) (body : Go S P α) : Go S P α :=
  body.tryCatch fun _ => do
    cleanup
    pure zero

/-- Sequencing stops at a panic and keeps the state reached there. -/
@[simp] theorem Go.exec_bind (m : Go S P α) (f : α → Go S P β) (s : S) :
    (m >>= f).exec s = match m.exec s with
      | (.ok a, s') => (f a).exec s'
      | (.error p, s') => (.error p, s') := by
  unfold Go.exec
  simp only [ExceptT.run_bind, StateT.run_bind]
  rcases StateT.run (ExceptT.run m) s with ⟨result, s'⟩
  cases result <;> rfl

/-- A computation that cannot panic always returns. -/
@[simp] theorem Go.exec_lift (m : StateM S α) (s : S) :
    (liftM m : Go S P α).exec s = (.ok (m.run s).1, (m.run s).2) := rfl

/-- Run the body under a deferred function that recovers, and goes on with the value recovered. -/
def recovering (handle : P → Go S P α) (body : Go S P α) : Go S P α := body.tryCatch handle

/-- A panic is recovered in the state that it left. -/
theorem Go.exec_recovering (handle : P → Go S P α) (body : Go S P α) (s : S) :
    (recovering handle body).exec s = match body.exec s with
      | (.ok a, s') => (.ok a, s')
      | (.error p, s') => (handle p).exec s' := by
  unfold recovering ExceptT.tryCatch Go.exec
  simp only [ExceptT.run_mk, StateT.run_bind]
  change (StateT.run (ExceptT.run body) s >>= _) = _
  rcases StateT.run (ExceptT.run body) s with ⟨result, s'⟩
  cases result <;> rfl

/-- A recovered panic returns the zero results after the cleanup. -/
theorem Go.exec_deferRecover (zero : α) (cleanup : Go S P Unit) (body : Go S P α) (s : S) :
    (deferRecover zero cleanup body).exec s = match body.exec s with
      | (.ok a, s') => (.ok a, s')
      | (.error _, s') => (cleanup >>= fun _ => pure zero).exec s' :=
  Go.exec_recovering (fun _ => cleanup >>= fun _ => pure zero) body s

/-- The outcome after a deferred computation: a panic of its own replaces the outcome so far. -/
def afterDeferred (outcome : Except P α) : Except P Unit → Except P α
  | .ok () => outcome
  | .error p => .error p

/-- A panic comes from the deferred code, or gets past it. -/
theorem afterDeferred_eq_error {outcome : Except P α} {deferred : Except P Unit} {p : P} :
    afterDeferred outcome deferred = .error p ↔
      deferred = .error p ∨ deferred = .ok () ∧ outcome = .error p := by
  cases deferred with
  | error q => simp [afterDeferred]
  | ok u => simp [afterDeferred]

/-- Run a deferred computation once the body has returned or panicked. -/
def deferring (deferred : Go S P Unit) (body : Go S P α) : Go S P α :=
  ExceptT.mk do
    let outcome ← ExceptT.run body
    return afterDeferred outcome (← ExceptT.run deferred)

/-- The deferred code runs after the body in any case. -/
theorem Go.exec_deferring (deferred : Go S P Unit) (body : Go S P α) (s : S) :
    (deferring deferred body).exec s =
      (afterDeferred (body.exec s).1 (deferred.exec (body.exec s).2).1,
        (deferred.exec (body.exec s).2).2) := rfl

@[simp] theorem Go.exec_throw (p : P) (s : S) : (throw p : Go S P α).exec s = (.error p, s) := rfl

end Panic

end Stardust.Core
