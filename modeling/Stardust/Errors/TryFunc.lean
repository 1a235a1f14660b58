import Stardust.Core.Effects

/-!
# One function for try, catch and finally

`TryFunc` calls its finally block at the end of the deferred function that recovers. What panics
before in that function, the catch block or the panic that no catch block takes, passes it by.
-/

namespace Stardust.Errors

open Stardust.Core

variable {S P : Type}

/-- Run the body under a deferred function that catches its panic and then calls the finally
block. -/
def tryFunc (body : Go S P Unit) (catch_ : Option (P → Go S P Unit))
    (finally_ : Option (Go S P Unit)) : Go S P Unit := do
  let r ← recovering (fun p => return some p) do
    body
    return none
  if let some r := r then
    match catch_ with
    | some handler => handler r
    | none => throw r
  if let some handler := finally_ then
    handler

section Semantics

variable {body finally_ : Go S P Unit} {s s' : S}

private theorem exec_tryFunc_of_ok {catch_ : Option (P → Go S P Unit)}
    (h : body.exec s = (.ok (), s')) :
    (tryFunc body catch_ (some finally_)).exec s = finally_.exec s' := by
  unfold tryFunc
  rw [Go.exec_bind, Go.exec_recovering, Go.exec_bind, h]
  rfl

/-- A panic without a catch block goes on at once. -/
theorem exec_tryFunc_of_uncaught {r : P} (h : body.exec s = (.error r, s')) :
    (tryFunc body none (some finally_)).exec s = (.error r, s') := by
  unfold tryFunc
  rw [Go.exec_bind, Go.exec_recovering, Go.exec_bind, h]
  rfl

/-- The finally block comes after a catch block that returns. -/
theorem exec_tryFunc_of_caught {r : P} {handler : P → Go S P Unit}
    (h : body.exec s = (.error r, s')) :
    (tryFunc body (some handler) (some finally_)).exec s =
      (handler r >>= fun _ => finally_).exec s' := by
  unfold tryFunc
  rw [Go.exec_bind, Go.exec_recovering, Go.exec_bind, h]
  rfl

end Semantics

/-- The blocks of a `TryFunc`, as they are called. -/
inductive Block (P : Type) where
  | body
  | catch_ (r : P)
  | finally_
  deriving DecidableEq, Repr

/-- A block that notes its call and then returns or panics. -/
def logged (block : Block P) (outcome : Except P Unit) : Go (List (Block P)) P Unit := do
  modify (· ++ [block])
  match outcome with
  | .ok () => return
  | .error p => throw p

private theorem exec_logged (block : Block P) (outcome : Except P Unit) (calls : List (Block P)) :
    (logged block outcome).exec calls = (outcome, calls ++ [block]) := by
  cases outcome <;> rfl

/-- The run of a `TryFunc` whose blocks return or panic as given. -/
def callsOf (body : Except P Unit) (catch_ : Option (P → Except P Unit))
    (finally_ : Except P Unit) : Except P Unit × List (Block P) :=
  (tryFunc (logged .body body) (catch_.map fun handler r => logged (.catch_ r) (handler r))
    (some (logged .finally_ finally_))).exec []

/-- What a body and its catch block come to. -/
def caught (body : Except P Unit) (catch_ : Option (P → Except P Unit)) :
    Except P Unit × List (Block P) :=
  match body, catch_ with
  | .ok (), _ => (.ok (), [.body])
  | .error r, none => (.error r, [.body])
  | .error r, some handler => (handler r, [.body, .catch_ r])

/-- The finally block is called last, exactly once, and the latest panic counts. -/
def finallyAlways (body : Except P Unit) (catch_ : Option (P → Except P Unit))
    (finally_ : Except P Unit) : Except P Unit × List (Block P) :=
  (afterDeferred (caught body catch_).1 finally_, (caught body catch_).2 ++ [.finally_])

/-- `TryFunc` calls its finally block exactly when the body returns, or when there is a catch block
for its panic and that returns. -/
theorem tryFunc_finally_iff (body : Except P Unit) (catch_ : Option (P → Except P Unit))
    (finally_ : Except P Unit) :
    callsOf body catch_ finally_ = finallyAlways body catch_ finally_ ↔
      ∀ r, body = .error r → ∃ handler, catch_ = some handler ∧ handler r = .ok () := by
  unfold callsOf finallyAlways
  rcases body with r | _
  · cases catch_ with
    | none =>
      rw [Option.map_none, exec_tryFunc_of_uncaught (exec_logged ..)]
      simp [caught]
    | some handler =>
      rw [Option.map_some, exec_tryFunc_of_caught (exec_logged ..), Go.exec_bind, exec_logged]
      cases h : handler r with
      | error p => simp [caught, h]
      | ok _ =>
        simp only [exec_logged, caught, h]
        cases finally_ <;> simp [afterDeferred, h]
  · rw [exec_tryFunc_of_ok (exec_logged ..), exec_logged]
    cases finally_ <;> simp [caught, afterDeferred]

/-- A panic without a catch block and a panic of the catch block pass the finally block by. -/
theorem tryFunc_without_finally :
    callsOf (.error "boom") none (.ok ()) = (.error "boom", [.body]) ∧
      callsOf (.error "boom") (some fun _ => .error "again") (.ok ()) =
        (.error "again", [.body, .catch_ "boom"]) :=
  ⟨rfl, rfl⟩

end Stardust.Errors
