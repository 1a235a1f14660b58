import Stardust.Core.System

/-!
# A function that runs once

Any number of calls go through a guard like Go's `sync.Once`: the first one runs the body, the
others wait for it and return. The body is a sequence of actions, each of which may panic. A panic
ends the call that runs the body and uses up the guard, like a normal end does; the actions that
were left are never taken.
-/

namespace Stardust.Core.Once

/-- Where the guard stands. -/
inductive Phase (α : Type*) where
  | fresh
  /-- The call that runs the body, with the actions that are left. -/
  | running (i : Nat) (rest : List α)
  | done
  deriving DecidableEq

/-- Where a call stands. -/
inductive Call where
  | entered
  | returned
  | panicked
  deriving DecidableEq

/-- The calls, and how far the body is. -/
structure State (α : Type*) where
  phase : Phase α
  calls : List Call
  /-- The actions taken, in order. -/
  log : List α
  deriving DecidableEq

/-- What happens next. -/
inductive Label where
  | call
  /-- A call becomes the one that runs the body. -/
  | enter (i : Nat)
  | act
  | finish
  /-- Another call returns when the body has ended. -/
  | join (i : Nat)
  deriving DecidableEq

variable {α : Type*} (panics : α → Bool) (body : List α)

/-- The next action of the body. -/
def act (s : State α) : Option (State α) :=
  match s.phase with
  | .running i (a :: rest) =>
    if panics a then some ⟨.done, s.calls.set i .panicked, s.log ++ [a]⟩
    else some ⟨.running i rest, s.calls, s.log ++ [a]⟩
  | _ => none

/-- The body ends, and so does the call that ran it. -/
def finish (s : State α) : Option (State α) :=
  match s.phase with
  | .running i [] => some ⟨.done, s.calls.set i .returned, s.log⟩
  | _ => none

/-- The first call runs the body. -/
def enter (s : State α) (i : Nat) : Option (State α) :=
  match s.phase, s.calls[i]? with
  | .fresh, some .entered => some { s with phase := .running i body }
  | _, _ => none

/-- A later call returns once the body has ended. -/
def join (s : State α) (i : Nat) : Option (State α) :=
  match s.phase, s.calls[i]? with
  | .done, some .entered => some { s with calls := s.calls.set i .returned }
  | _, _ => none

/-- One step of the calls. -/
def step (s : State α) : Label → Option (State α)
  | .call => some { s with calls := s.calls ++ [.entered] }
  | .enter i => enter body s i
  | .act => act panics s
  | .finish => finish s
  | .join i => join s i

/-- Calls through a guard that has not been used. -/
def once : System (State α) Label where
  init s := s = ⟨.fresh, [], []⟩
  step := step panics body

/-- The actions up to the first one that panics, with it. -/
def upToPanic : List α → List α
  | [] => []
  | a :: rest => a :: if panics a then [] else upToPanic rest

/-- What runs is the beginning of the body. -/
theorem upToPanic_initial (rest : List α) : upToPanic panics rest <+: rest := by
  induction rest with
  | nil => exact List.prefix_rfl
  | cons a rest ih =>
    rw [upToPanic, List.cons_prefix_cons]
    refine ⟨rfl, ?_⟩
    split
    · exact List.nil_prefix
    · exact ih

/-- All actions are taken exactly when none before the last one panics. -/
theorem upToPanic_eq_self_iff (rest : List α) :
    upToPanic panics rest = rest ↔ ∀ a ∈ rest.dropLast, panics a = false := by
  induction rest with
  | nil => simp [upToPanic]
  | cons a rest ih =>
    rw [upToPanic, List.cons.injEq, eq_self, true_and]
    cases rest with
    | nil => simp [upToPanic]
    | cons b rest =>
      rw [List.dropLast_cons_cons, List.forall_mem_cons, ← ih]
      cases hpanics : panics a with
      | true => simp
      | false => simp

/-- What the phase of the guard tells about the calls and the actions. -/
def Holds (s : State α) : Phase α → Prop
  | .fresh => s.log = [] ∧ ∀ c ∈ s.calls, c = .entered
  | .running _ rest => s.log ++ upToPanic panics rest = upToPanic panics body ∧
      ∀ c ∈ s.calls, c = .entered
  | .done => s.log = upToPanic panics body

section Steps

variable {panics body} {s s' : State α}

private theorem holds_act (h : Holds panics body s s.phase) (hstep : act panics s = some s') :
    Holds panics body s' s'.phase := by
  unfold act at hstep
  split at hstep
  case h_2 => cases hstep
  case h_1 i a rest hphase =>
    rw [hphase] at h
    obtain ⟨hlog, hcalls⟩ := h
    rw [upToPanic] at hlog
    cases hpanics : panics a with
    | true =>
      rw [if_pos hpanics] at hstep hlog
      obtain rfl := Option.some.inj hstep
      exact hlog
    | false =>
      rw [if_neg (by simp [hpanics])] at hstep hlog
      obtain rfl := Option.some.inj hstep
      refine ⟨?_, hcalls⟩
      rw [List.append_assoc]
      exact hlog

private theorem holds_finish (h : Holds panics body s s.phase) (hstep : finish s = some s') :
    Holds panics body s' s'.phase := by
  unfold finish at hstep
  split at hstep
  case h_2 => cases hstep
  case h_1 i hphase =>
    rw [hphase] at h
    obtain rfl := Option.some.inj hstep
    have hlog := h.1
    rw [upToPanic, List.append_nil] at hlog
    exact hlog

private theorem holds_enter {i : Nat} (h : Holds panics body s s.phase)
    (hstep : enter body s i = some s') : Holds panics body s' s'.phase := by
  unfold enter at hstep
  split at hstep
  case h_2 => cases hstep
  case h_1 hphase _ =>
    rw [hphase] at h
    obtain rfl := Option.some.inj hstep
    refine ⟨?_, h.2⟩
    rw [h.1, List.nil_append]

private theorem holds_join {i : Nat} (h : Holds panics body s s.phase)
    (hstep : join s i = some s') : Holds panics body s' s'.phase := by
  unfold join at hstep
  split at hstep
  case h_2 => cases hstep
  case h_1 hphase _ =>
    rw [hphase] at h
    obtain rfl := Option.some.inj hstep
    rw [hphase]
    exact h

private theorem holds_step {l : Label} (h : Holds panics body s s.phase)
    (hstep : step panics body s l = some s') : Holds panics body s' s'.phase := by
  cases l with
  | call =>
    obtain rfl := Option.some.inj hstep
    have hnew : (∀ c ∈ s.calls, c = .entered) → ∀ c ∈ s.calls ++ [.entered], c = .entered := by
      intro hcalls c hc
      rcases List.mem_append.mp hc with hc | hc
      · exact hcalls c hc
      · exact List.mem_singleton.mp hc
    cases hphase : s.phase with
    | fresh =>
      rw [hphase] at h
      exact ⟨h.1, hnew h.2⟩
    | running i rest =>
      rw [hphase] at h
      exact ⟨h.1, hnew h.2⟩
    | done =>
      rw [hphase] at h
      exact h
  | enter i => exact holds_enter h hstep
  | act => exact holds_act h hstep
  | finish => exact holds_finish h hstep
  | join i => exact holds_join h hstep

private theorem holds_of_reachable (h : (once panics body).Reachable s) :
    Holds panics body s s.phase := by
  refine System.Reachable.invariant (P := fun s => Holds panics body s s.phase) (fun s hinit => ?_)
    (fun s l s' => holds_step) h
  obtain rfl : s = ⟨.fresh, [], []⟩ := hinit
  exact ⟨rfl, fun c hc => absurd hc List.not_mem_nil⟩

/-- In all states the actions taken are the first ones of the body, each taken once. -/
theorem log_initial (h : (once panics body).Reachable s) : s.log <+: upToPanic panics body := by
  have hholds := holds_of_reachable h
  cases hphase : s.phase with
  | fresh =>
    rw [hphase] at hholds
    rw [hholds.1]
    exact List.nil_prefix
  | running i rest =>
    rw [hphase] at hholds
    exact ⟨_, hholds.1⟩
  | done =>
    rw [hphase] at hholds
    exact ⟨[], by rw [List.append_nil]; exact hholds⟩

/-- When a call has come back, the body has ended. -/
theorem log_of_ended (h : (once panics body).Reachable s) {c : Call} (hc : c ∈ s.calls)
    (hended : c ≠ .entered) : s.log = upToPanic panics body := by
  have hholds := holds_of_reachable h
  cases hphase : s.phase with
  | fresh =>
    rw [hphase] at hholds
    exact absurd (hholds.2 c hc) hended
  | running i rest =>
    rw [hphase] at hholds
    exact absurd (hholds.2 c hc) hended
  | done =>
    rw [hphase] at hholds
    exact hholds

end Steps

/-- A call that runs what is left of the body comes back. -/
theorem run_of_running (rest log : List α) :
    ∃ ls c, c ≠ .entered ∧ (once panics body).run ⟨.running 0 rest, [.entered], log⟩ ls =
      some ⟨.done, [c], log ++ upToPanic panics rest⟩ := by
  induction rest generalizing log with
  | nil => exact ⟨[.finish], .returned, by simp, by rw [upToPanic, List.append_nil]; rfl⟩
  | cons a rest ih =>
    cases hpanics : panics a with
    | true =>
      refine ⟨[.act], .panicked, by simp, ?_⟩
      simp [System.run, once, step, act, upToPanic, hpanics]
    | false =>
      obtain ⟨ls, c, hc, hrun⟩ := ih (log ++ [a])
      refine ⟨.act :: ls, c, hc, ?_⟩
      have hact : (once panics body).step ⟨.running 0 (a :: rest), [.entered], log⟩ .act =
          some ⟨.running 0 rest, [.entered], log ++ [a]⟩ := by
        simp [once, step, act, hpanics]
      rw [System.run_cons_iff]
      refine ⟨_, hact, ?_⟩
      rw [hrun, upToPanic, if_neg (by simp [hpanics]), List.append_assoc, List.singleton_append]

/-- Some call comes back. -/
theorem exists_ended : ∃ s c, (once panics body).Reachable s ∧ c ∈ s.calls ∧ c ≠ .entered := by
  obtain ⟨ls, c, hc, hrun⟩ := run_of_running panics body body []
  refine ⟨⟨.done, [c], [] ++ upToPanic panics body⟩, c,
    ⟨⟨.fresh, [], []⟩, .call :: .enter 0 :: ls, rfl, ?_⟩, List.mem_singleton_self c, hc⟩
  rw [System.run_cons_iff]
  refine ⟨_, rfl, ?_⟩
  rw [System.run_cons_iff]
  exact ⟨_, rfl, hrun⟩

/-- Whenever a call has come back, all actions have been taken, exactly when none before the last
one panics. -/
theorem forall_ended_iff :
    (∀ s, (once panics body).Reachable s → ∀ c ∈ s.calls, c ≠ .entered → s.log = body) ↔
      ∀ a ∈ body.dropLast, panics a = false := by
  rw [← upToPanic_eq_self_iff]
  constructor
  · intro hall
    obtain ⟨s, c, hs, hc, hended⟩ := exists_ended panics body
    rw [← log_of_ended hs hc hended]
    exact hall s hs c hc hended
  · intro hself s hs c hc hended
    exact (log_of_ended hs hc hended).trans hself

end Stardust.Core.Once
