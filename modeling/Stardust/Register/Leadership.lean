import Stardust.Register.Convergence
import Stardust.Register.Ownership

/-!
# Staying in the election and leaving it

`run` calls `RunOrDie` once. When a held lease is lost the goroutine ends while the controller
still counts as started, so nothing campaigns any more. When a controller is stopped, `Stop` waits
for the goroutine of `run` but not for that of `OnStartedLeading`, whose store of the flag may
come after everything else.
-/

namespace Stardust.Register

open Stardust.Core Controller

namespace Controller

variable {ctl ctl' : Controller} {e : Event}

/-- The controller leads or campaigns. -/
def TakesPart (ctl : Controller) : Prop := ctl.election = .acquiring ∨ ctl.election = .leading

/-- An event other than a loss keeps an uncancelled controller in the election. -/
theorem TakesPart.event (h : ctl.TakesPart) (he : ctl.event e = some ctl')
    (hcancelled : ctl'.cancelled = false) (hloss : ¬ (e = .lose ∨ e = .die)) : ctl'.TakesPart := by
  unfold TakesPart at h ⊢
  cases event_move he <;> simp_all

/-- A loss takes the controller out of the election and does nothing to its context. -/
theorem loss_spec (he : ctl.event e = some ctl') (hloss : e = .lose ∨ e = .die) :
    ¬ ctl'.TakesPart ∧ ctl'.cancelled = ctl.cancelled := by
  unfold TakesPart
  cases event_move he <;> simp_all

/-- The goroutine of `OnStartedLeading` starts with the lease, and only it raises the flag. -/
structure Consistent (ctl : Controller) : Prop where
  /-- Before the lease is won there is no callback. -/
  campaigning : ctl.election = .idle ∨ ctl.election = .acquiring → ctl.callback = .absent
  /-- Before the store the flag is down. -/
  unstored : ctl.callback = .absent ∨ ctl.callback = .spawned → ctl.isLeader = false

/-- Every event keeps a controller consistent. -/
theorem Consistent.event (h : ctl.Consistent) (he : ctl.event e = some ctl') :
    ctl'.Consistent := by
  obtain ⟨hcampaigning, hunstored⟩ := h
  cases event_move he <;> constructor <;> simp_all

/-- The flag is down once `OnStoppedLeading` has run, and will stay down. -/
def Quiet (ctl : Controller) : Prop :=
  ctl.election = .returned ∨ ctl.election = .closed →
    ctl.callback ≠ .spawned ∧ ctl.isLeader = false

/-- Every event keeps the flag down for good, if `OnStoppedLeading` runs after the store. -/
theorem Quiet.event (h : ctl.Quiet) (hcons : ctl.Consistent) (he : ctl.event e = some ctl')
    (hstored : e = .stoppedLeading → ctl.callback ≠ .spawned) : ctl'.Quiet := by
  obtain ⟨hcampaigning, hunstored⟩ := hcons
  unfold Quiet at h ⊢
  cases event_move he <;> simp_all

end Controller

namespace ApisixGateway

variable {s s' s₀ : ApisixGateway} {c : Nat} {l : Label} {ls : List Label}

/-- Every controller that is started, not stopped and not cancelled leads or campaigns. -/
def AllTakePart (s : ApisixGateway) : Prop :=
  ∀ c ctl, s.controllers c = some ctl → ctl.started = true → ctl.cancelled = false → ctl.TakesPart

/-- A lease is lost, or the election panics, only where the controller is stopped or cancelled. -/
def LosesNoLease (s : ApisixGateway) : Label → Prop
  | .elect c e _ => (e = .lose ∨ e = .die) →
      ∀ ctl, s.controllers c = some ctl → ctl.started = true → ctl.cancelled = true
  | _ => True

/-- A step keeps all controllers in the election exactly when it loses no lease. -/
theorem AllTakePart.step_iff (h : s.AllTakePart) (hs : s.step l = some s') :
    s'.AllTakePart ↔ s.LosesNoLease l := by
  constructor
  · intro h'
    cases l with
    | invoke op => trivial
    | proceed i o => trivial
    | elect c e ans =>
      intro hloss ctl hc hstarted
      obtain ⟨ctl₁, ctl', hc₁, he, hs'⟩ := elect_cases hs
      rw [hc] at hc₁
      cases hc₁
      have hnew : s'.controllers c = some ctl' := by
        rcases hs' with ⟨-, rfl⟩ | rfl
        · exact Function.update_self ..
        · exact Function.update_self ..
      obtain ⟨hout, hsame⟩ := loss_spec he hloss
      by_contra hcancelled
      refine hout (h' c ctl' hnew ?_ ?_)
      · rw [(event_frame he).2.1]
        exact hstarted
      · rw [hsame]
        exact Bool.eq_false_iff.mpr hcancelled
  · intro hguard d ctl' hd hstarted hcancelled
    cases step_changes hs hd with
    | same hold => exact h d ctl' hold hstarted hcancelled
    | event ctl e ans hl hold he =>
      subst hl
      have hwas : ctl.started = true := by rw [← (event_frame he).2.1]; exact hstarted
      by_cases hloss : e = .lose ∨ e = .die
      · have hbefore := hguard hloss ctl hold hwas
        rw [(loss_spec he hloss).2, hbefore] at hcancelled
        cases hcancelled
      · have hbefore : ctl.cancelled = false := by
          by_contra hyes
          have hafter := (event_frame he).2.2.2.2.2 (Bool.eq_true_of_not_eq_false hyes)
          rw [hcancelled] at hafter
          cases hafter
        exact (h d ctl hold hwas hbefore).event he hcancelled hloss
    | locked ctl i o op rest hl hold hi heq =>
      subst heq
      cases hstarted
    | cancelled ctl hold heq =>
      subst heq
      cases hcancelled
    | stopped ctl i op rest pc hold hi hwhy heq =>
      subst heq
      exact h d ctl hold hstarted hcancelled
    | started svc ctl access hfresh hnext hnew hstart =>
      exact Or.inl (start_of_new hnew hstart).2.2.2.1

/-- In every run, every controller that is started, not stopped and not cancelled leads or
campaigns in all states exactly when none of them loses a lease or fails to campaign at all. -/
theorem leader_takes_part_iff_loses_no_lease (hinit : leaderSystem.init s₀)
    (hrun : leaderSystem.run s₀ ls = some s) :
    (∀ before after t, ls = before ++ after → leaderSystem.run s₀ before = some t →
        t.AllTakePart) ↔ leaderSystem.Guarded LosesNoLease s₀ ls := by
  refine leaderSystem.forall_states_iff_guarded (I := fun _ => True) (P := AllTakePart)
    (fun _ _ _ _ _ => trivial) (fun t l t' _ ht hstep => ht.step_iff hstep) trivial ?_ hrun
  intro c ctl hc
  rw [hinit.2.2.2.1] at hc
  cases hc

/-- Answers and choices of an outside that never fails, with nothing to choose. -/
def plainOutcome : Outcome := ⟨allAccepted, .available, []⟩

/-- A gateway in leader mode inside a pod. -/
def podGateway (deregisterOnShutdown : Option Bool) : ApisixGateway where
  gateway := { newGateway with config := ⟨"leader", deregisterOnShutdown⟩ }
  settings := ⟨"", "", "", 0, 0, 0, 0⟩
  env := ⟨"default", "", none, "pod-0", none⟩
  controllers := fun _ => none
  created := 0
  leaderControllers := []
  leaderMu := none
  calls := fun _ => none
  invoked := 0
  issued := []

/-- The registration of a service by the first call. -/
def registration : List Label :=
  [.invoke (.registerService (sampleService ["/a"])), .proceed 0 plainOutcome,
    .proceed 0 plainOutcome]

/-- An event of the first controller. -/
def event (e : Controller.Event) : Label := .elect 0 e allAccepted

/-- The gateway of a pod is an initial state. -/
theorem podGateway_init (deregisterOnShutdown : Option Bool) :
    leaderSystem.init (podGateway deregisterOnShutdown) :=
  ⟨rfl, rfl, rfl, rfl, rfl, rfl, rfl, rfl, rfl, rfl⟩

/-- A controller that wins the lease and keeps it takes part all along. -/
theorem leader_takes_part_while_leading :
    ∃ s, leaderSystem.run (podGateway none) (registration ++ [event .win, event .storeTrue]) =
        some s ∧ ∀ before after t,
          registration ++ [event .win, event .storeTrue] = before ++ after →
            leaderSystem.run (podGateway none) before = some t → t.AllTakePart := by
  obtain ⟨s, hrun⟩ : ∃ s, leaderSystem.run (podGateway none)
      (registration ++ [event .win, event .storeTrue]) = some s := ⟨_, rfl⟩
  refine ⟨s, hrun, (leader_takes_part_iff_loses_no_lease (podGateway_init none) hrun).mpr ?_⟩
  apply leaderSystem.guarded_of_forall
  simp [registration, event, LosesNoLease]

/-- A controller that loses a held lease stays started while nothing campaigns any more. -/
theorem leader_lost_lease_ends_campaign :
    ∃ s ctl, leaderSystem.init (podGateway none) ∧
      leaderSystem.run (podGateway none) (registration ++
        [event .win, event .storeTrue, event .lose, event .stoppedLeading, event .closeDone]) =
          some s ∧
      s.controllers 0 = some ctl ∧ ctl.started = true ∧ ctl.cancelled = false ∧
      ctl.election = .closed ∧ ¬ s.AllTakePart := by
  refine ⟨_, _, podGateway_init none, rfl, rfl, rfl, rfl, rfl, fun hall => ?_⟩
  rcases hall 0 _ rfl rfl rfl with hacquiring | hleading
  · cases hacquiring
  · cases hleading

/-- Once `Stop` has returned, the flag is down. -/
def StoppedIsDown (s : ApisixGateway) : Prop :=
  ∀ c ctl, s.controllers c = some ctl → ctl.stopped = true → ctl.isLeader = false

/-- `OnStoppedLeading` does not run while the store of `OnStartedLeading` is still to come. -/
def StoresBefore (s : ApisixGateway) : Label → Prop
  | .elect c e _ => e = .stoppedLeading → ∀ ctl ∈ s.controllers c, ctl.callback ≠ .spawned
  | _ => True

instance (s : ApisixGateway) : ∀ l, Decidable (s.StoresBefore l)
  | .elect c e _ => inferInstanceAs (Decidable
      (e = .stoppedLeading → ∀ ctl ∈ s.controllers c, ctl.callback ≠ .spawned))
  | .invoke _ => isTrue trivial
  | .proceed _ _ => isTrue trivial

/-- Every controller is consistent. -/
def AllConsistent (s : ApisixGateway) : Prop :=
  ∀ c ctl, s.controllers c = some ctl → ctl.Consistent

/-- Every step keeps all controllers consistent. -/
theorem AllConsistent.step (h : s.AllConsistent) (hs : s.step l = some s') : s'.AllConsistent := by
  intro c ctl' hc
  cases step_changes hs hc with
  | same hold => exact h c ctl' hold
  | event ctl e ans hl hold he => exact (h c ctl hold).event he
  | locked ctl i o op rest hl hold hi heq =>
    subst heq
    exact ⟨(h c ctl hold).campaigning, (h c ctl hold).unstored⟩
  | cancelled ctl hold heq =>
    subst heq
    exact ⟨(h c ctl hold).campaigning, (h c ctl hold).unstored⟩
  | stopped ctl i op rest pc hold hi hwhy heq =>
    subst heq
    exact ⟨(h c ctl hold).campaigning, (h c ctl hold).unstored⟩
  | started svc ctl access hfresh hnext hnew hstart =>
    obtain ⟨-, -, -, -, hcallback, hflag, -⟩ := start_of_new hnew hstart
    exact ⟨fun _ => hcallback, fun _ => hflag⟩

/-- A gateway starts without controllers. -/
theorem allConsistent_of_init (hinit : leaderSystem.init s) : s.AllConsistent := by
  intro c ctl hc
  rw [hinit.2.2.2.1] at hc
  cases hc

/-- A step that keeps the order of the two stores keeps every controller quiet. -/
theorem quiet_step (h : ∀ c ctl, s.controllers c = some ctl → ctl.Quiet)
    (hcons : s.AllConsistent) (hguard : s.StoresBefore l) (hs : s.step l = some s') :
    ∀ c ctl, s'.controllers c = some ctl → ctl.Quiet := by
  intro c ctl' hc
  cases step_changes hs hc with
  | same hold => exact h c ctl' hold
  | event ctl e ans hl hold he =>
    subst hl
    exact (h c ctl hold).event (hcons c ctl hold) he fun heq => hguard heq ctl hold
  | locked ctl i o op rest hl hold hi heq =>
    subst heq
    exact h c ctl hold
  | cancelled ctl hold heq =>
    subst heq
    exact h c ctl hold
  | stopped ctl i op rest pc hold hi hwhy heq =>
    subst heq
    exact h c ctl hold
  | started svc ctl access hfresh hnext hnew hstart =>
    intro hover
    rw [(start_of_new hnew hstart).2.2.2.1] at hover
    simp at hover

/-- In every run in which `OnStoppedLeading` never runs before the store of `OnStartedLeading`,
`IsLeader` is false in every state after `Stop` has returned. -/
theorem stop_returned_flag_down (hinit : leaderSystem.init s₀)
    (hguard : leaderSystem.Guarded StoresBefore s₀ ls) (hrun : leaderSystem.run s₀ ls = some s) :
    s.StoppedIsDown := by
  obtain ⟨horderly, -, hquiet⟩ := leaderSystem.run_guarded
    (P := fun t => t.Orderly ∧ t.AllConsistent ∧ ∀ c ctl, t.controllers c = some ctl → ctl.Quiet)
    (fun t l t' ht hg hstep =>
      ⟨ht.1.step hstep, ht.2.1.step hstep, quiet_step ht.2.2 ht.2.1 hg hstep⟩)
    ⟨orderly_of_init hinit, allConsistent_of_init hinit,
      fun c ctl hc => by rw [hinit.2.2.2.1] at hc; cases hc⟩ hguard hrun
  intro c ctl hc hstopped
  have hclosed := horderly.stopping.closed c ctl hc hstopped
  exact (hquiet c ctl hc (Or.inr hclosed)).2

/-- A deregistration of the service by the second call, up to the wait for `done`. -/
def deregistration : List Label :=
  [.invoke (.deregisterService "svc"), .proceed 1 plainOutcome, .proceed 1 plainOutcome,
    .proceed 1 plainOutcome]

/-- A controller whose flag was stored before it is stopped is down afterwards. -/
theorem stop_returned_flag_down_after_store :
    ∃ s ctl, leaderSystem.run (podGateway none) (registration ++ [event .win, event .storeTrue] ++
        deregistration ++ [event .withdraw, event .stoppedLeading, event .closeDone,
          .proceed 1 plainOutcome]) = some s ∧
      s.controllers 0 = some ctl ∧ ctl.stopped = true ∧ s.StoppedIsDown := by
  obtain ⟨s, ctl, hrun, hc, hstopped⟩ : ∃ s ctl, leaderSystem.run (podGateway none)
      (registration ++ [event .win, event .storeTrue] ++ deregistration ++
        [event .withdraw, event .stoppedLeading, event .closeDone, .proceed 1 plainOutcome]) =
      some s ∧ s.controllers 0 = some ctl ∧ ctl.stopped = true := ⟨_, _, rfl, rfl, rfl⟩
  exact ⟨s, ctl, hrun, hc, hstopped,
    stop_returned_flag_down (podGateway_init none) (by decide) hrun⟩

/-- A store that comes after `Stop` has returned leaves the flag up for good. -/
theorem stop_returned_flag_up :
    ∃ s ctl, leaderSystem.init (podGateway none) ∧
      leaderSystem.run (podGateway none) (registration ++ [event .win] ++ deregistration ++
        [event .withdraw, event .stoppedLeading, event .closeDone, .proceed 1 plainOutcome,
          event .storeTrue]) = some s ∧
      s.controllers 0 = some ctl ∧ ctl.stopped = true ∧ ctl.isLeader = true ∧
      ¬ s.StoppedIsDown := by
  refine ⟨_, _, podGateway_init none, rfl, rfl, rfl, rfl, fun hdown => ?_⟩
  cases hdown 0 _ rfl rfl

end ApisixGateway

end Stardust.Register
