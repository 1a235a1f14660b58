import Mathlib.Data.List.Basic

/-!
# Programs that send requests

A client program returns, panics, or sends a request and goes on with the answer, which may be
an error. A server answers each request from a state of its own. What a program may touch is
read off the program, for all answers at once, and bounds what it touches against any server.
-/

namespace Stardust.Core

/-- A program over requests `Req`, errors `E` and panics `P`. -/
inductive Client (Req : Type → Type) (E P α : Type) : Type 1 where
  | ret (a : α)
  | panic (p : P)
  | send {β : Type} (request : Req β) (next : Except E β → Client Req E P α)

/-- What answers the requests. -/
structure Server (Req : Type → Type) (E σ : Type) where
  /-- The answer and the state after it. -/
  answer : {β : Type} → Req β → σ → Except E β × σ

namespace Client

variable {Req : Type → Type} {E P α β σ A : Type}

/-- Go on with the result. -/
def bind : Client Req E P α → (α → Client Req E P β) → Client Req E P β
  | .ret a, f => f a
  | .panic p, _ => .panic p
  | .send request next, f => .send request fun r => (next r).bind f

instance : Monad (Client Req E P) where
  pure := .ret
  bind := bind

/-- Drop the result. -/
def ignore (p : Client Req E P α) : Client Req E P Unit := p.bind fun _ => .ret ()

/-- Run a deferred program once the first one has returned or panicked. -/
def withDefer (p : Client Req E P α) (cleanup : Client Req E P β) : Client Req E P α :=
  match p with
  | .ret a => cleanup.bind fun _ => .ret a
  | .panic v => cleanup.bind fun _ => .panic v
  | .send request next => .send request fun r => (next r).withDefer cleanup

/-- Run the program against a server: its result or its panic, and the state that it leaves. -/
def run (server : Server Req E σ) : Client Req E P α → σ → Except P α × σ
  | .ret a, s => (.ok a, s)
  | .panic p, s => (.error p, s)
  | .send request next, s =>
    run server (next (server.answer request s).1) (server.answer request s).2

/-- What the requests touch when the program runs against a server. -/
def trace (touch : (β : Type) → Req β → List A) (server : Server Req E σ) :
    Client Req E P α → σ → List A
  | .ret _, _ => []
  | .panic _, _ => []
  | .send request next, s =>
    touch _ request ++ trace touch server (next (server.answer request s).1)
      (server.answer request s).2

/-- Whatever the answers, the program touches nothing that is not allowed. -/
def Within (touch : (β : Type) → Req β → List A) (allowed : A → Prop) :
    Client Req E P α → Prop
  | .ret _ => True
  | .panic _ => True
  | .send request next =>
    (∀ a ∈ touch _ request, allowed a) ∧ ∀ r, Within touch allowed (next r)

variable {touch : (β : Type) → Req β → List A} {allowed : A → Prop}

@[simp] theorem within_pure (a : α) :
    Within touch allowed (pure a : Client Req E P α) := trivial

@[simp] theorem within_ret (a : α) :
    Within touch allowed (.ret a : Client Req E P α) := trivial

@[simp] theorem within_send {β : Type} {request : Req β}
    {next : Except E β → Client Req E P α} :
    Within touch allowed (.send request next) ↔
      (∀ a ∈ touch _ request, allowed a) ∧ ∀ r, Within touch allowed (next r) := Iff.rfl

/-- Sequencing stays within what both parts stay within. -/
theorem Within.bind {p : Client Req E P α} {f : α → Client Req E P β}
    (hp : p.Within touch allowed) (hf : ∀ a, (f a).Within touch allowed) :
    (p >>= f).Within touch allowed := by
  change (p.bind f).Within touch allowed
  induction p with
  | ret a => exact hf a
  | panic v => trivial
  | send request next ih => exact ⟨hp.1, fun r => ih r (hp.2 r)⟩

/-- Ignoring the answer accesses nothing. -/
theorem Within.ignore {p : Client Req E P α} (hp : p.Within touch allowed) :
    p.ignore.Within touch allowed := hp.bind fun _ => within_ret ()

/-- A bound on the program bounds every run. -/
theorem Within.trace {p : Client Req E P α} (h : p.Within touch allowed)
    (server : Server Req E σ) (s : σ) : ∀ a ∈ p.trace touch server s, allowed a := by
  induction p generalizing s with
  | ret a => simp [Client.trace]
  | panic v => simp [Client.trace]
  | send request next ih =>
    intro a ha
    rcases List.mem_append.mp ha with hfirst | hrest
    · exact h.1 a hfirst
    · exact ih _ (h.2 _) _ a hrest

/-- The first request is sent against every server. -/
theorem mem_trace_send {β : Type} {request : Req β} {next : Except E β → Client Req E P α} {a : A}
    (h : a ∈ touch _ request) (server : Server Req E σ) (s : σ) :
    a ∈ (Client.send request next).trace touch server s := List.mem_append_left _ h

end Client

end Stardust.Core
