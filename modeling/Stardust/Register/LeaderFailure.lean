import Stardust.Register.LeaderCleanup

/-!
# A registration that fails

A registration stops the recorded controller before it knows whether another one can be made and
started. Where it cannot, the table still has the old controller, which nobody starts again.
-/

namespace Stardust.Register

open Stardust.Core Function

namespace ApisixGateway

variable {s s' s₁ t : ApisixGateway} {i c : Nat} {svc : GatewayService} {o o' : Outcome}
  {l : Label} {ls : List Label} {table : List (String × Nat)}

/-- The controller is recorded for the service and started. -/
def RunsFor (s : ApisixGateway) (serviceID : String) (c : Nat) : Prop :=
  s.lookup serviceID = some c ∧ ∃ ctl, s.controllers c = some ctl ∧ ctl.started = true

/-- The controller is not started. -/
def Down (s : ApisixGateway) (c : Nat) : Prop :=
  ∀ ctl, s.controllers c = some ctl → ctl.started = false

/-- Only a new controller is started. -/
theorem Down.step (h : s.Down c) (hs : s.step l = some s') (hcreated : s'.created = s.created) :
    s'.Down c := by
  intro ctl' hc
  cases step_changes hs hc with
  | same hold => exact h ctl' hold
  | event ctl e ans hl hold he =>
    rw [(Controller.event_frame he).2.1]
    exact h ctl hold
  | locked ctl i o op rest hl hold hi heq =>
    subst heq
    rfl
  | cancelled ctl hold heq =>
    subst heq
    exact h ctl hold
  | stopped ctl i op rest pc hold hi hwhy heq =>
    subst heq
    exact h ctl hold
  | started svc ctl access hfresh hnext hnew hstart => omega

/-- While a call holds the mutex, the others leave it the table. -/
theorem step_table_of_locked (horderly : s.Orderly) (hmu : s.leaderMu = some i)
    (hs : s.step l = some s') (hl : ∀ o, l ≠ .proceed i o) :
    s'.leaderMu = some i ∧ s'.leaderControllers = s.leaderControllers ∧
      s'.created = s.created := by
  obtain ⟨owner, howned⟩ := horderly.owned
  have hother : ∀ j o svc d, l = .proceed j o →
      s.calls j ≠ some ⟨.registerService svc, .stopped d⟩ := by
    intro j o svc d hlj hj
    have hmuj := howned.locked j _ hj ⟨⟨svc, rfl⟩, Or.inr ⟨d, rfl⟩⟩
    rw [hmu] at hmuj
    cases hmuj
    exact hl o hlj
  cases l with
  | invoke op =>
    cases hs
    exact ⟨hmu, rfl, rfl⟩
  | proceed j o =>
    cases proceed_section hs with
    | lockTable svc pc hi hfree _ | take id pc hi hfree _ | takeAll pc hi hfree _ _ =>
      rw [hmu] at hfree
      cases hfree
    | registerFailed svc d err hi => exact absurd hi (hother j o svc d rfl)
    | install svc d ctl ctl' hi _ _ => exact absurd hi (hother j o svc d rfl)
    | _ => exact ⟨hmu, rfl, rfl⟩
  | elect c e ans =>
    obtain ⟨ctl, ctl', -, -, ⟨-, rfl⟩ | rfl⟩ := elect_cases hs <;> exact ⟨hmu, rfl, rfl⟩

/-- Where a registration stands between its first section and its last. -/
inductive Replacing (s : ApisixGateway) (i : Nat) (svc : GatewayService) : Prop where
  | stopping (c : Nat) (pc : StopPc)
      (hi : s.calls i = some ⟨.registerService svc, .stopping c [] pc⟩)
      (hlookup : s.lookup svc.id = some c) (hdown : pc ≠ .lock → s.Down c)
  | stopped (d : Option Nat) (hi : s.calls i = some ⟨.registerService svc, .stopped d⟩)
      (hdown : ∀ c, s.lookup svc.id = some c → s.Down c)

/-- A registration in progress, with the table that it found. -/
structure Held (s : ApisixGateway) (i : Nat) (svc : GatewayService)
    (table : List (String × Nat)) : Prop where
  mu : s.leaderMu = some i
  table : s.leaderControllers = table
  place : s.Replacing i svc

/-- What is recorded depends on the table only. -/
theorem lookup_congr (h : s'.leaderControllers = s.leaderControllers) (serviceID : String) :
    s'.lookup serviceID = s.lookup serviceID := by
  rw [lookup, lookup, h]

/-- The first section of a registration. -/
theorem held_of_enter (hmode : s.gateway.config.mode = .leader)
    (hi : s.calls i = some ⟨.registerService svc, .entry⟩)
    (hs : s.step (.proceed i o) = some s') : s'.Held i svc s.leaderControllers := by
  simp only [step, proceed, hi, enter, hmode] at hs
  split at hs
  · cases hs
  · cases hlookup : s.lookup svc.id with
    | some c =>
      simp only [hlookup, Option.some.injEq] at hs
      subst hs
      exact ⟨rfl, rfl, .stopping c .lock (update_self ..) hlookup
        fun hne => absurd rfl hne⟩
    | none =>
      simp only [hlookup, Option.some.injEq] at hs
      subst hs
      refine ⟨rfl, rfl, .stopped none (update_self ..) fun c hc => ?_⟩
      have hnone : s.lookup svc.id = some c := hc
      rw [hlookup] at hnone
      cases hnone

/-- The steps of the others. -/
theorem Held.step_other (h : s.Held i svc table) (horderly : s.Orderly)
    (hs : s.step l = some s') (hl : ∀ o, l ≠ .proceed i o) : s'.Held i svc table := by
  obtain ⟨hmu, htable, hcreated⟩ := step_table_of_locked horderly h.mu hs hl
  obtain ⟨owner, howned⟩ := horderly.owned
  refine ⟨hmu, htable.trans h.table, ?_⟩
  cases h.place with
  | stopping c pc hi hlookup hdown =>
    refine .stopping c pc ?_ ?_ fun hne => (hdown hne).step hs hcreated
    · rw [step_calls_of_ne hs (howned.lt_invoked hi) hl, hi]
    · rw [lookup_congr htable, hlookup]
  | stopped d hi hdown =>
    refine .stopped d ?_ fun c hc => ?_
    · rw [step_calls_of_ne hs (howned.lt_invoked hi) hl, hi]
    · rw [lookup_congr htable] at hc
      exact (hdown c hc).step hs hcreated

/-- A controller that is set without being started is down. -/
theorem down_setController {ctl : Controller} (h : ctl.started = false) (op : Op) (pc : Pc) :
    ((s.setController c ctl).setCall i op pc).Down c := by
  intro ctl' hc
  have hset : ((s.setController c ctl).setCall i op pc).controllers c = some ctl :=
    update_self ..
  rw [hset] at hc
  cases hc
  exact h

/-- A registration inside `Stop`, past the section that marks the controller. -/
theorem Held.stopping (h : s.Held i svc table) (hlookup : s.lookup svc.id = some c)
    {ctl : Controller} (hdown : ctl.started = false) (pc : StopPc) :
    ((s.setController c ctl).setCall i (.registerService svc) (.stopping c [] pc)).Held i svc
      table :=
  ⟨h.mu, h.table, .stopping c pc (update_self ..) hlookup
    fun _ => down_setController hdown _ _⟩

/-- A registration for which `Stop` has returned. -/
theorem Held.stopped (h : s.Held i svc table) (hlookup : s.lookup svc.id = some c)
    {ctl : Controller} (hdown : ctl.started = false) :
    ((s.setController c ctl).setCall i (.registerService svc) (.stopped (some c))).Held i svc
      table := by
  refine ⟨h.mu, h.table, .stopped (some c) (update_self ..) fun d hd => ?_⟩
  obtain rfl : c = d := Option.some.inj (hlookup.symm.trans hd)
  exact down_setController hdown _ _

/-- The sections of `Stop` under a registration. -/
theorem Held.step_stopping (h : s.Held i svc table) {pc : StopPc}
    (hi : s.calls i = some ⟨.registerService svc, .stopping c [] pc⟩)
    (hlookup : s.lookup svc.id = some c) (hdown : pc ≠ .lock → s.Down c)
    (hs : s.step (.proceed i o) = some s') : s'.Held i svc table := by
  simp only [step, proceed, hi, stop] at hs
  split at hs
  · cases hs
  next ctl hc =>
  cases pc with
  | lock =>
    dsimp only at hs
    split at hs
    · obtain rfl := Option.some.inj hs
      exact h.stopping hlookup rfl .cancel
    · next hstarted =>
      obtain rfl := Option.some.inj hs
      exact h.stopped hlookup (Bool.eq_false_iff.mpr hstarted)
  | cancel =>
    obtain rfl := Option.some.inj hs
    refine h.stopping hlookup ?_ .wait
    exact hdown (by simp) ctl hc
  | wait =>
    dsimp only at hs
    split at hs
    · obtain rfl := Option.some.inj hs
      exact h.stopped hlookup (hdown (by simp) ctl hc)
    · cases hs

/-- The registration's own sections: it goes on, or it returns; with an error it leaves the table
as it was and what is recorded down. -/
theorem Held.step_own (h : s.Held i svc table) (hs : s.step (.proceed i o) = some s') :
    s'.Held i svc table ∨ ∃ err, s'.calls i = some ⟨.registerService svc, .returned err⟩ ∧
      (err ≠ none → s'.leaderControllers = table ∧
        ∀ c, s'.lookup svc.id = some c → s'.Down c) := by
  cases h.place with
  | stopping c pc hi hlookup hdown => exact Or.inl (h.step_stopping hi hlookup hdown hs)
  | stopped d hi hdown =>
    right
    simp only [step, proceed, hi, conclude] at hs
    split at hs
    · next err _ =>
      obtain rfl := Option.some.inj hs
      exact ⟨some err, update_self .., fun _ => ⟨h.table, hdown⟩⟩
    · split at hs
      · next err _ =>
        obtain rfl := Option.some.inj hs
        exact ⟨some err, update_self .., fun _ => ⟨h.table, hdown⟩⟩
      · obtain rfl := Option.some.inj hs
        exact ⟨none, update_self .., fun hne => absurd rfl hne⟩

/-- Until a registration returns it holds the table. -/
theorem held_or_returned_step (horderly : s.Orderly)
    (h : s.Held i svc table ∨ ∃ err, s.calls i = some ⟨.registerService svc, .returned err⟩)
    (hs : s.step l = some s') :
    s'.Held i svc table ∨ ∃ err, s'.calls i = some ⟨.registerService svc, .returned err⟩ := by
  by_cases hl : ∃ o, l = .proceed i o
  · obtain ⟨o, rfl⟩ := hl
    rcases h with hheld | ⟨err, hreturned⟩
    · rcases hheld.step_own hs with hnext | ⟨err, hreturned, -⟩
      · exact Or.inl hnext
      · exact Or.inr ⟨err, hreturned⟩
    · exact (not_section_of_returned hreturned hs).elim
  · have hne : ∀ o, l ≠ .proceed i o := fun o heq => hl ⟨o, heq⟩
    obtain ⟨owner, howned⟩ := horderly.owned
    rcases h with hheld | ⟨err, hreturned⟩
    · exact Or.inl (hheld.step_other horderly hs hne)
    · refine Or.inr ⟨err, ?_⟩
      rw [step_calls_of_ne hs (howned.lt_invoked hreturned) hne, hreturned]

/-- A registration that fails leaves the table as it found it, but a controller that ran for the
service when it began runs no more: nothing is changed exactly if none did. -/
theorem failed_registration_keeps_iff {msg : String} (hs : leaderSystem.Reachable s)
    (hi : s.calls i = some ⟨.registerService svc, .entry⟩)
    (hcall : s.step (.proceed i o) = some s₁) (hrun : leaderSystem.run s₁ ls = some t)
    (hlast : t.step (.proceed i o') = some s')
    (hreturned : s'.calls i = some ⟨.registerService svc, .returned (some msg)⟩) :
    s'.leaderControllers = s.leaderControllers ∧
      ((∀ c, s.RunsFor svc.id c → s'.RunsFor svc.id c) ↔ ∀ c, ¬ s.RunsFor svc.id c) := by
  obtain ⟨horderly, -, hmode, -⟩ := reachable_facts hs
  have hend : t.Orderly ∧ (t.Held i svc s.leaderControllers ∨
      ∃ err, t.calls i = some ⟨.registerService svc, .returned err⟩) :=
    leaderSystem.run_invariant (P := fun u => u.Orderly ∧ (u.Held i svc s.leaderControllers ∨
      ∃ err, u.calls i = some ⟨.registerService svc, .returned err⟩))
      (fun u l u' hu hstep => ⟨hu.1.step hstep, held_or_returned_step hu.1 hu.2 hstep⟩)
      ⟨horderly.step hcall, Or.inl (held_of_enter hmode hi hcall)⟩ hrun
  have hheld : t.Held i svc s.leaderControllers := by
    rcases hend.2 with hheld | ⟨err, hover⟩
    · exact hheld
    · exact (not_section_of_returned hover hlast).elim
  rcases hheld.step_own hlast with hnext | ⟨err, hreturned', hfailed⟩
  · cases hnext.place with
    | stopping c pc hi' _ _ | stopped d hi' _ =>
      rw [hreturned] at hi'
      cases hi'
  · rw [hreturned] at hreturned'
    cases hreturned'
    obtain ⟨htable, hdown⟩ := hfailed (by simp)
    have hnone : ∀ c, ¬ s'.RunsFor svc.id c := by
      rintro c ⟨hlookup, ctl, hc, hstarted⟩
      rw [hdown c hlookup ctl hc] at hstarted
      cases hstarted
    exact ⟨htable, fun h c hc => hnone c (h c hc), fun h c hc => absurd hc (h c)⟩

/-- The cluster cannot be reached. -/
def failingOutcome : Outcome :=
  ⟨allAccepted, .noConfig "unable to load in-cluster configuration", []⟩

/-- The error that the registration returns then. -/
def failingMessage : String :=
  "leader mode requires in-cluster kubernetes config: unable to load in-cluster configuration"

/-- A failing registration of a service without a controller changes nothing. -/
theorem failed_registration_keeps_nothing :
    ∃ s s₁ s', leaderSystem.run (podGateway none)
        [.invoke (.registerService (sampleService ["/a"]))] = some s ∧
      s.step (.proceed 0 plainOutcome) = some s₁ ∧ s₁.step (.proceed 0 failingOutcome) = some s' ∧
      s'.leaderControllers = s.leaderControllers ∧
      ∀ c, s.RunsFor "svc" c → s'.RunsFor "svc" c := by
  obtain ⟨s, s₁, s', hrun, hi, hcall, hlast, hreturned, htable⟩ : ∃ s s₁ s',
      leaderSystem.run (podGateway none) [.invoke (.registerService (sampleService ["/a"]))] =
        some s ∧
      s.calls 0 = some ⟨.registerService (sampleService ["/a"]), .entry⟩ ∧
      s.step (.proceed 0 plainOutcome) = some s₁ ∧ s₁.step (.proceed 0 failingOutcome) = some s' ∧
      s'.calls 0 = some ⟨.registerService (sampleService ["/a"]),
        .returned (some failingMessage)⟩ ∧
      s.lookup "svc" = none := ⟨_, _, _, rfl, rfl, rfl, rfl, rfl, rfl⟩
  obtain ⟨hsame, hkeeps⟩ := failed_registration_keeps_iff
    ⟨_, _, podGateway_init none, hrun⟩ hi hcall (leaderSystem.run_nil s₁) hlast hreturned
  refine ⟨s, s₁, s', hrun, hcall, hlast, hsame, hkeeps.mpr fun c hc => ?_⟩
  have hlookup : s.lookup "svc" = some c := hc.1
  rw [htable] at hlookup
  cases hlookup

/-- The sections of a second registration up to its last, around the end of the election. -/
def replacement : List Label :=
  [.proceed 1 plainOutcome, .proceed 1 plainOutcome, event .withdraw, event .stoppedLeading,
    event .closeDone, .proceed 1 plainOutcome]

/-- A leader is stopped by a registration that fails, and stays recorded. -/
theorem failed_registration_stops_leader :
    ∃ s s₁ t s', leaderSystem.init (podGateway none) ∧
      leaderSystem.run (podGateway none) (registration ++ [event .win, event .storeTrue] ++
        [.invoke (.registerService (sampleService ["/a"]))]) = some s ∧
      s.step (.proceed 1 plainOutcome) = some s₁ ∧
      leaderSystem.run s₁ replacement = some t ∧
      t.step (.proceed 1 failingOutcome) = some s' ∧
      s'.calls 1 = some ⟨.registerService (sampleService ["/a"]),
        .returned (some failingMessage)⟩ ∧
      s.RunsFor "svc" 0 ∧ s'.lookup "svc" = some 0 ∧ ¬ s'.RunsFor "svc" 0 := by
  refine ⟨_, _, _, _, podGateway_init none, rfl, rfl, rfl, rfl, rfl, ⟨rfl, _, rfl, rfl⟩, rfl, ?_⟩
  rintro ⟨-, ctl, hc, hstarted⟩
  cases hc
  cases hstarted

end ApisixGateway

end Stardust.Register
