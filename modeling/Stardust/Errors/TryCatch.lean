import Stardust.Core.Effects

/-!
# Try chains

A chain is built by registering handlers with one `TryHandler`. `Do` runs the body, lets one
handler answer its outcome, and runs the finally handler in a deferred function, where a panic
replaces the one that is under way.
-/

namespace Stardust.Errors

open Stardust.Core

/-- What is used of errors: `E` is the type of errors, `T` of those that handlers are registered
for, and `W` of values that are no errors. -/
structure ErrorOps (E T W : Type) where
  /-- `errors.Is`. -/
  is : E → T → Bool
  /-- `fmt.Errorf("panic: %+v", v)`. -/
  errorf : W → E

/-- A value to panic with. -/
inductive PanicValue (E W : Type) where
  | error (err : E)
  | other (v : W)
  deriving DecidableEq

/-- Code that may panic. -/
abbrev Code (S E W : Type) := Go S (PanicValue E W)

variable {S E T W : Type}

/-- A handler and the error it is for. -/
structure CatchHandler (S E T W : Type) where
  err : T
  handler : E → Code S E W Unit

/-- The handlers of one `Try`. -/
structure TryHandler (S E T W : Type) where
  handler : Code S E W Unit
  bindingCatchHandlerSlice : List (CatchHandler S E T W)
  bindingDefaultCatchHandler : Option (E → Code S E W Unit)
  bindingTryCatchElseHandler : Option (Code S E W Unit)
  finallyHandler : Option (Code S E W Unit)

/-- A chain starts with its body. -/
def try_ (funcToTry : Code S E W Unit) : TryHandler S E T W := ⟨funcToTry, [], none, none, none⟩

/-- A call that goes on with a chain. All types in a chain pass it on to their `TryHandler`. -/
inductive Registration (S E T W : Type) where
  | catch_ (err : T) (handler : E → Code S E W Unit)
  | defaultCatch (handler : E → Code S E W Unit)
  | else_ (handler : Code S E W Unit)
  | finally_ (handler : Code S E W Unit)

/-- Catch handlers are added to those before, the others replace them. -/
def TryHandler.register (x : TryHandler S E T W) : Registration S E T W → TryHandler S E T W
  | .catch_ err handler =>
    { x with bindingCatchHandlerSlice := x.bindingCatchHandlerSlice ++ [⟨err, handler⟩] }
  | .defaultCatch handler => { x with bindingDefaultCatchHandler := some handler }
  | .else_ handler => { x with bindingTryCatchElseHandler := some handler }
  | .finally_ handler => { x with finallyHandler := some handler }

/-- A chain by its calls. -/
def chain (body : Code S E W Unit) (calls : List (Registration S E T W)) : TryHandler S E T W :=
  calls.foldl TryHandler.register (try_ body)

section Do

variable (ops : ErrorOps E T W)

/-- What was panicked with, as an error. -/
def toError : PanicValue E W → E
  | .error err => err
  | .other v => ops.errorf v

/-- The error of a panic, nil if the function returns. -/
def tryCatch (f : Code S E W Unit) : Code S E W (Option E) :=
  recovering (fun r => return some (toError ops r)) do
    f
    return none

/-- Call the first handler that matches, and say whether there is one. -/
def catchFirst (err : E) : List (CatchHandler S E T W) → Code S E W Bool
  | [] => return false
  | c :: cs =>
    if ops.is err c.err then do
      c.handler err
      return true
    else catchFirst err cs

/-- Call the handler if there is one. -/
def callIf : Option (Code S E W Unit) → Code S E W Unit
  | some h => h
  | none => pure ()

/-- Run the body and what its outcome calls for. -/
def TryHandler.do_ (x : TryHandler S E T W) : Code S E W Unit :=
  deferring (callIf x.finallyHandler) do
    match ← tryCatch ops x.handler with
    | none => callIf x.bindingTryCatchElseHandler
    | some err =>
      let catchSuccess ← catchFirst ops err x.bindingCatchHandlerSlice
      if catchSuccess then
        return
      match x.bindingDefaultCatchHandler with
      | some handler => handler err
      | none => throw (.error err)

end Do

section Registrations

/-- The last of the calls from which something is picked. -/
def lastOf {α : Type} (pick : Registration S E T W → Option α)
    (calls : List (Registration S E T W)) : Option α :=
  (calls.filterMap pick).getLast?

variable (calls : List (Registration S E T W))

/-- The catch handlers of a chain, in the order of their registration. -/
def catchesOf : List (CatchHandler S E T W) :=
  calls.filterMap fun
    | .catch_ err handler => some ⟨err, handler⟩
    | _ => none

/-- The last `DefaultCatch`. -/
def defaultOf : Option (E → Code S E W Unit) :=
  lastOf (fun
    | .defaultCatch handler => some handler
    | _ => none) calls

/-- The last `Else`. -/
def elseOf : Option (Code S E W Unit) :=
  lastOf (fun
    | .else_ handler => some handler
    | _ => none) calls

/-- The last `Finally`. -/
def finallyOf : Option (Code S E W Unit) :=
  lastOf (fun
    | .finally_ handler => some handler
    | _ => none) calls

/-- A field that every call either sets or keeps has the last value set. -/
theorem foldl_register_eq_lastOf {α : Type} (field : TryHandler S E T W → Option α)
    {pick : Registration S E T W → Option α}
    (hregister : ∀ x call, field (x.register call) = (pick call).or (field x))
    (calls : List (Registration S E T W)) (x : TryHandler S E T W) :
    field (calls.foldl TryHandler.register x) = (lastOf pick calls).or (field x) := by
  induction calls generalizing x with
  | nil => rfl
  | cons call calls ih =>
    rw [List.foldl_cons, ih, hregister]
    unfold lastOf
    rw [List.filterMap_cons]
    cases pick call with
    | none => rfl
    | some a =>
      rw [List.getLast?_cons]
      cases (calls.filterMap pick).getLast? <;> rfl

variable (body : Code S E W Unit)

@[simp] private theorem chain_handler (calls : List (Registration S E T W)) :
    (chain body calls).handler = body := by
  have hkeep : ∀ x : TryHandler S E T W,
      (calls.foldl TryHandler.register x).handler = x.handler := by
    induction calls with
    | nil => exact fun x => rfl
    | cons call calls ih =>
      intro x
      rw [List.foldl_cons, ih]
      cases call <;> rfl
  exact hkeep _

/-- All catch handlers of a chain stay registered, in their order. -/
@[simp] theorem chain_catches (calls : List (Registration S E T W)) :
    (chain body calls).bindingCatchHandlerSlice = catchesOf calls := by
  have happend : ∀ x : TryHandler S E T W,
      (calls.foldl TryHandler.register x).bindingCatchHandlerSlice =
        x.bindingCatchHandlerSlice ++ catchesOf calls := by
    induction calls with
    | nil => exact fun x => (List.append_nil _).symm
    | cons call calls ih =>
      intro x
      rw [List.foldl_cons, ih]
      cases call with
      | catch_ err handler => exact List.append_assoc _ _ _
      | defaultCatch handler => rfl
      | else_ handler => rfl
      | finally_ handler => rfl
  exact happend _

@[simp] private theorem chain_default (calls : List (Registration S E T W)) :
    (chain body calls).bindingDefaultCatchHandler = defaultOf calls :=
  (foldl_register_eq_lastOf (fun x => x.bindingDefaultCatchHandler)
    (fun x call => by cases call <;> rfl) calls (try_ body)).trans Option.or_none

@[simp] private theorem chain_else (calls : List (Registration S E T W)) :
    (chain body calls).bindingTryCatchElseHandler = elseOf calls :=
  (foldl_register_eq_lastOf (fun x => x.bindingTryCatchElseHandler)
    (fun x call => by cases call <;> rfl) calls (try_ body)).trans Option.or_none

@[simp] private theorem chain_finally (calls : List (Registration S E T W)) :
    (chain body calls).finallyHandler = finallyOf calls :=
  (foldl_register_eq_lastOf (fun x => x.finallyHandler)
    (fun x call => by cases call <;> rfl) calls (try_ body)).trans Option.or_none

end Registrations

section Semantics

variable (ops : ErrorOps E T W)

/-- The handler that answers the outcome of the body: the else handler if it has returned, and
otherwise the first catch handler that matches, or else the default handler. -/
def answering (calls : List (Registration S E T W)) :
    Except (PanicValue E W) Unit → Option (Code S E W Unit)
  | .ok () => elseOf calls
  | .error v =>
    match (catchesOf calls).find? fun c => ops.is (toError ops v) c.err with
    | some c => some (c.handler (toError ops v))
    | none => (defaultOf calls).map fun handler => handler (toError ops v)

/-- What an outcome comes to if no handler answers it: an uncaught panic goes on as an error. -/
def unanswered : Except (PanicValue E W) Unit → Except (PanicValue E W) Unit
  | .ok () => .ok ()
  | .error v => .error (.error (toError ops v))

/-- The state and outcome after a handler, or as they are without one. -/
def after (handler : Option (Code S E W Unit)) (outcome : Except (PanicValue E W) Unit) (s : S) :
    Except (PanicValue E W) Unit × S :=
  match handler with
  | some h => h.exec s
  | none => (outcome, s)

/-- After the body of a chain and the handler that answers it. -/
def answered (body : Code S E W Unit) (calls : List (Registration S E T W)) (s : S) :
    Except (PanicValue E W) Unit × S :=
  after (answering ops calls (body.exec s).1) (unanswered ops (body.exec s).1) (body.exec s).2

/-- After the finally handler. -/
def finished (body : Code S E W Unit) (calls : List (Registration S E T W)) (s : S) :
    Except (PanicValue E W) Unit × S :=
  after (finallyOf calls) (.ok ()) (answered ops body calls s).2

private theorem exec_callIf (handler : Option (Code S E W Unit)) (s : S) :
    (callIf handler).exec s = after handler (.ok ()) s := by
  cases handler <;> rfl

private theorem exec_tryCatch (f : Code S E W Unit) (s : S) :
    (tryCatch ops f).exec s =
      (.ok (match (f.exec s).1 with
        | .ok () => none
        | .error v => some (toError ops v)), (f.exec s).2) := by
  unfold tryCatch
  rw [Go.exec_recovering, Go.exec_bind]
  rcases f.exec s with ⟨_ | _, s'⟩ <;> rfl

/-- The loop calls the first handler that matches and no other. -/
theorem exec_catchFirst (err : E) (handlers : List (CatchHandler S E T W)) (s : S) :
    (catchFirst ops err handlers).exec s =
      match handlers.find? fun c => ops.is err c.err with
      | some c => (c.handler err >>= fun _ => pure true).exec s
      | none => (.ok false, s) := by
  induction handlers with
  | nil => rfl
  | cons c cs ih =>
    unfold catchFirst
    rw [List.find?_cons]
    cases ops.is err c.err with
    | true => rfl
    | false => exact ih

/-- Before the deferred function, a chain has run its body and the handler that answers it. -/
theorem exec_before_finally (body : Code S E W Unit) (calls : List (Registration S E T W)) (s : S) :
    Go.exec (do
      match ← tryCatch ops body with
      | none => callIf (elseOf calls)
      | some err =>
        let catchSuccess ← catchFirst ops err (catchesOf calls)
        if catchSuccess then
          return
        match defaultOf calls with
        | some handler => handler err
        | none => throw (.error err)) s = answered ops body calls s := by
  rw [Go.exec_bind, exec_tryCatch]
  unfold answered
  rcases body.exec s with ⟨v | _, s'⟩
  · simp only [Go.exec_bind, exec_catchFirst, answering, unanswered]
    cases (catchesOf calls).find? fun c => ops.is (toError ops v) c.err with
    | some c =>
      simp only [after]
      rcases (c.handler (toError ops v)).exec s' with ⟨_ | _, s''⟩ <;> rfl
    | none => cases defaultOf calls <;> rfl
  · exact exec_callIf (elseOf calls) s'

/-- The whole of a chain: the outcome is that before the deferred function unless this panics. -/
theorem exec_do (body : Code S E W Unit) (calls : List (Registration S E T W)) (s : S) :
    ((chain body calls).do_ ops).exec s =
      (afterDeferred (answered ops body calls s).1 (finished ops body calls s).1,
        (finished ops body calls s).2) := by
  unfold TryHandler.do_ finished
  rw [Go.exec_deferring]
  simp only [chain_handler, chain_catches, chain_default, chain_else, chain_finally,
    exec_before_finally, exec_callIf]

/-- A panic after the answer is one of the handler that answers, or the uncaught one of the body. -/
theorem answered_eq_error {body : Code S E W Unit} {calls : List (Registration S E T W)} {s : S}
    {p : PanicValue E W} :
    (answered ops body calls s).1 = .error p ↔
      (∃ h, answering ops calls (body.exec s).1 = some h ∧
        (h.exec (body.exec s).2).1 = .error p) ∨
      answering ops calls (body.exec s).1 = none ∧
        ∃ v, (body.exec s).1 = .error v ∧ p = .error (toError ops v) := by
  unfold answered after
  cases answering ops calls (body.exec s).1 with
  | some h => simp
  | none =>
    rcases (body.exec s).1 with v | _
    · simp [unanswered, eq_comm]
    · simp [unanswered]

/-- A chain runs its body, then the handler that answers the outcome, then the finally handler. It
panics as the finally handler does, and if that returns, as the handler that answered or with the
uncaught error of the body. -/
theorem do_runs_body_answer_finally (body : Code S E W Unit) (calls : List (Registration S E T W))
    (s : S) :
    (((chain body calls).do_ ops).exec s).2 = (finished ops body calls s).2 ∧
      ∀ p, (((chain body calls).do_ ops).exec s).1 = .error p ↔
        (finished ops body calls s).1 = .error p ∨
          (finished ops body calls s).1 = .ok () ∧
            ((∃ h, answering ops calls (body.exec s).1 = some h ∧
                (h.exec (body.exec s).2).1 = .error p) ∨
              answering ops calls (body.exec s).1 = none ∧
                ∃ v, (body.exec s).1 = .error v ∧ p = .error (toError ops v)) := by
  rw [exec_do]
  refine ⟨rfl, fun p => ?_⟩
  rw [afterDeferred_eq_error, answered_eq_error]

end Semantics

end Stardust.Errors
