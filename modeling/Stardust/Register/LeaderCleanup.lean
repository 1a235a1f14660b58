import Stardust.Register.Writers

/-!
# Deregistration by the leader

`DeregisterService` stops the controller and only then asks whether it is the leader. By that
time `OnStoppedLeading` has taken the flag down, so the answer is yes only when the store of
`OnStartedLeading` comes after that and before the question.
-/

namespace Stardust.Register

open Stardust.Core Function

/-- The batch deletes the routes recorded for its service, then its upstream. -/
def Issue.DeletesTracked (e : Issue) : Prop := e.requests = Gateway.deletions e.tracked e.service

namespace Controller

variable {ctl ctl' : Controller} {e : Event}

/-- `OnStoppedLeading` has run. -/
def Past (ctl : Controller) : Prop := ctl.election = .returned ∨ ctl.election = .closed

/-- The election has been won. -/
def Engaged (ctl : Controller) : Prop := ctl.election ≠ .idle ∧ ctl.election ≠ .acquiring

/-- The flag may still be up when it is asked for. -/
def Hopeful (ctl : Controller) : Prop :=
  ctl.Past → ctl.callback = .spawned ∨ ctl.isLeader = true

private theorem Past.event (h : ctl.Past) (he : ctl.event e = some ctl') : ctl'.Past := by
  unfold Past at h ⊢
  cases event_move he <;> simp_all

private theorem Engaged.event (h : ctl.Engaged) (he : ctl.event e = some ctl') : ctl'.Engaged := by
  unfold Engaged at h ⊢
  cases event_move he <;> simp_all

/-- `OnStoppedLeading` does not run twice. -/
theorem Past.not_stoppedLeading (h : ctl.Past) : ctl.event .stoppedLeading = none := by
  unfold Past at h
  rcases h with hreturned | hclosed
  · simp [Controller.event, hreturned]
  · simp [Controller.event, hclosed]

/-- Hope ends where `OnStoppedLeading` runs after the store, and never comes back. -/
theorem hopeful_event (hengaged : ctl.Engaged) (he : ctl.event e = some ctl') :
    (ctl.Hopeful → (ctl'.Hopeful ↔ (e = .stoppedLeading → ctl.callback = .spawned))) ∧
      (¬ ctl.Hopeful → ¬ ctl'.Hopeful) := by
  unfold Engaged at hengaged
  unfold Hopeful Past
  cases event_move he <;> simp_all

end Controller

variable {ctl : Controller}

namespace ApisixGateway

variable {s s' s₀ s₁ : ApisixGateway} {i c : Nat} {id : String} {l : Label} {o : Outcome}
  {ls : List Label}

/-- What a section of a deregistration must find so that the leader deletes: the flag stored when
it is asked for, and no recorded route refused. -/
def Ready (s : ApisixGateway) (c : Nat) (o : Outcome) : Call → Prop
  | ⟨_, .stopped _⟩ => ∀ ctl ∈ s.controllers c, ctl.callback ≠ .spawned
  | ⟨.deregisterService id, .deleting _⟩ =>
    ∀ routeID ∈ s.gateway.routeIDs id, o.answers.deleteOk .routes routeID = true
  | _ => True

instance (s : ApisixGateway) (c : Nat) (o : Outcome) : ∀ call, Decidable (s.Ready c o call)
  | ⟨_, .stopped _⟩ =>
    inferInstanceAs (Decidable (∀ ctl ∈ s.controllers c, ctl.callback ≠ .spawned))
  | ⟨.deregisterService id, .deleting _⟩ =>
    inferInstanceAs (Decidable
      (∀ routeID ∈ s.gateway.routeIDs id, o.answers.deleteOk .routes routeID = true))
  | ⟨.registerService _, .deleting _⟩ => isTrue trivial
  | ⟨.close, .deleting _⟩ => isTrue trivial
  | ⟨_, .entry⟩ => isTrue trivial
  | ⟨_, .stopping _ _ _⟩ => isTrue trivial
  | ⟨_, .returned _⟩ => isTrue trivial

/-- The store of `OnStartedLeading` comes after `OnStoppedLeading`, and before the deregistration
asks for the flag. -/
def StoresLate (s : ApisixGateway) (i c : Nat) : Label → Prop
  | .elect d e _ => d = c → e = .stoppedLeading → ∀ ctl ∈ s.controllers c, ctl.callback = .spawned
  | .proceed j o => j = i → ∀ call ∈ s.calls i, s.Ready c o call
  | .invoke _ => True

instance (s : ApisixGateway) (i c : Nat) : ∀ l, Decidable (s.StoresLate i c l)
  | .elect d e _ => inferInstanceAs (Decidable
      (d = c → e = .stoppedLeading → ∀ ctl ∈ s.controllers c, ctl.callback = .spawned))
  | .proceed j o => inferInstanceAs (Decidable (j = i → ∀ call ∈ s.calls i, s.Ready c o call))
  | .invoke _ => isTrue trivial

/-- The call has sent nothing. -/
def Silent (s : ApisixGateway) (i : Nat) : Prop := ∀ e ∈ s.issued, e.call ≠ some i

/-- `OnStoppedLeading` of the controller has run. -/
def PastAt (s : ApisixGateway) (c : Nat) : Prop := ∀ ctl ∈ s.controllers c, ctl.Past

/-- Where a deregistration that took the controller out of the table may stand. -/
inductive Place (s : ApisixGateway) (i c : Nat) (id : String) : Prop where
  | stopping (pc : StopPc) (hi : s.calls i = some ⟨.deregisterService id, .stopping c [] pc⟩)
      (hsilent : s.Silent i)
  | stopped (hi : s.calls i = some ⟨.deregisterService id, .stopped (some c)⟩) (hpast : s.PastAt c)
      (hsilent : s.Silent i)
  | deleting (hi : s.calls i = some ⟨.deregisterService id, .deleting (some c)⟩)
      (hpast : s.PastAt c) (hsilent : s.Silent i)
  | returned (err : Option String)
      (hi : s.calls i = some ⟨.deregisterService id, .returned err⟩) (hpast : s.PastAt c)

/-- A deregistration that took a leader out of the table. -/
structure Deregistering (s : ApisixGateway) (i c : Nat) (id : String) : Prop where
  orderly : s.Orderly
  /-- Only the goroutine of a leader raises its flag. -/
  consistent : s.AllConsistent
  /-- The settings ask for the deletion. -/
  should : s.gateway.config.shouldDeregisterOnShutdown = true
  /-- The controller has won the lease. -/
  engaged : ∃ ctl, s.controllers c = some ctl ∧ ctl.Engaged
  /-- The call is on its way. -/
  place : s.Place i c id

/-- The deletion has been sent, or may still be. -/
def Prospect (s : ApisixGateway) (i c : Nat) : Prop :=
  match s.calls i with
  | some ⟨_, .returned _⟩ => ∃ e ∈ s.issued, e.call = some i ∧ e.DeletesTracked
  | some ⟨_, .deleting _⟩ => True
  | _ => ∀ ctl ∈ s.controllers c, ctl.Hopeful

private theorem PastAt.step (h : s.PastAt c) (hborn : s.Born) (hc : s.controllers c = some ctl)
    (hs : s.step l = some s') : s'.PastAt c := by
  intro ctl'' hc''
  obtain ⟨ctl', hc', hmove⟩ := step_follows hborn hs hc
  rw [Option.mem_def, hc'] at hc''
  cases hc''
  rcases hmove with ⟨e, ans, -, he⟩ | ⟨-, a, b, d, rfl⟩
  · exact (h ctl hc).event he
  · exact h ctl hc

/-- What another call or a goroutine sends is not sent by the call. -/
theorem step_issued_of_ne (hs : s.step l = some s') (hl : ∀ o, l ≠ .proceed i o) (e : Issue)
    (he : e.call = some i) : e ∈ s'.issued ↔ e ∈ s.issued := by
  rcases step_issued hs with hsame | ⟨e', happend, hown⟩
  · rw [hsame]
  · rw [happend, List.mem_append, List.mem_singleton]
    refine ⟨fun hmem => hmem.resolve_right ?_, Or.inl⟩
    rintro rfl
    obtain ⟨o, ho⟩ := hown i he
    exact hl o ho

/-- A step of somebody else leaves the call in its place. -/
theorem Place.step_other (h : s.Place i c id) (horderly : s.Orderly)
    (hc : s.controllers c = some ctl) (hs : s.step l = some s') (hl : ∀ o, l ≠ .proceed i o) :
    s'.Place i c id ∧ s'.calls i = s.calls i := by
  obtain ⟨owner, howned⟩ := horderly.owned
  have hcalls : ∀ call, s.calls i = some call → s'.calls i = some call := by
    intro call hi
    rw [step_calls_of_ne hs (howned.lt_invoked hi) hl]
    exact hi
  have hsilent : s.Silent i → s'.Silent i := by
    intro hsilent e he hcall
    exact hsilent e ((step_issued_of_ne hs hl e hcall).mp he) hcall
  cases h with
  | stopping pc hi hs' => exact ⟨.stopping pc (hcalls _ hi) (hsilent hs'), by rw [hcalls _ hi, hi]⟩
  | stopped hi hpast hs' =>
    exact ⟨.stopped (hcalls _ hi) (hpast.step horderly.born hc hs) (hsilent hs'),
      by rw [hcalls _ hi, hi]⟩
  | deleting hi hpast hs' =>
    exact ⟨.deleting (hcalls _ hi) (hpast.step horderly.born hc hs) (hsilent hs'),
      by rw [hcalls _ hi, hi]⟩
  | returned err hi hpast =>
    exact ⟨.returned err (hcalls _ hi) (hpast.step horderly.born hc hs), by rw [hcalls _ hi, hi]⟩

/-- After `OnStoppedLeading` no step of somebody else can break the order of the stores. -/
theorem storesLate_of_past (h : s.PastAt c) (hc : s.controllers c = some ctl)
    (hs : s.step l = some s') (hl : ∀ o, l ≠ .proceed i o) : s.StoresLate i c l := by
  cases l with
  | invoke op => trivial
  | proceed j o =>
    rintro rfl
    exact absurd rfl (hl o)
  | elect d e ans =>
    rintro rfl rfl
    obtain ⟨ctl₁, ctl', hc₁, he, -⟩ := elect_cases hs
    rw [hc] at hc₁
    cases hc₁
    rw [(h ctl hc).not_stoppedLeading] at he
    cases he

/-- While the call waits for `Stop`, a step of somebody else takes the hope away exactly when it
is an `OnStoppedLeading` after the store. -/
theorem hopeful_step_other (hborn : s.Born) (hc : s.controllers c = some ctl)
    (hengaged : ctl.Engaged) (hs : s.step l = some s') (hl : ∀ o, l ≠ .proceed i o) :
    ∃ ctl', s'.controllers c = some ctl' ∧ (ctl.Hopeful → (ctl'.Hopeful ↔ s.StoresLate i c l)) ∧
      (¬ ctl.Hopeful → ¬ ctl'.Hopeful) := by
  obtain ⟨ctl', hc', ⟨e, ans, rfl, he⟩ | ⟨hother, a, b, d, rfl⟩⟩ := step_follows hborn hs hc
  · obtain ⟨hkeep, hlost⟩ := Controller.hopeful_event hengaged he
    have hguard : s.StoresLate i c (.elect c e ans) ↔
        (e = .stoppedLeading → ctl.callback = .spawned) := by
      simp [StoresLate, hc]
    exact ⟨ctl', hc', by rw [hguard]; exact hkeep, hlost⟩
  · refine ⟨_, hc', fun hhope => iff_of_true hhope ?_, fun hnone => hnone⟩
    cases l with
    | invoke op => trivial
    | proceed j o =>
      rintro rfl
      exact absurd rfl (hl o)
    | elect d' e ans =>
      rintro rfl
      exact absurd rfl (hother e ans)

/-- A step of somebody else ends the prospect of a deletion exactly when it is an
`OnStoppedLeading` after the store. -/
theorem prospect_step_other (h : s.Deregistering i c id) (hs : s.step l = some s')
    (hl : ∀ o, l ≠ .proceed i o) :
    (s.Prospect i c → (s'.Prospect i c ↔ s.StoresLate i c l)) ∧
      (¬ s.Prospect i c → ¬ s'.Prospect i c) := by
  obtain ⟨ctl, hc, hengaged⟩ := h.engaged
  obtain ⟨-, hcalls⟩ := h.place.step_other h.orderly hc hs hl
  obtain ⟨ctl', hc', hkeep, hlost⟩ := hopeful_step_other h.orderly.born hc hengaged hs hl
  cases h.place with
  | stopping pc hi _ =>
    rw [hi] at hcalls
    simpa [Prospect, hi, hcalls, hc, hc'] using ⟨hkeep, hlost⟩
  | stopped hi _ _ =>
    rw [hi] at hcalls
    simpa [Prospect, hi, hcalls, hc, hc'] using ⟨hkeep, hlost⟩
  | deleting hi hpast _ =>
    rw [hi] at hcalls
    simpa [Prospect, hi, hcalls] using storesLate_of_past hpast hc hs hl
  | returned err hi hpast =>
    rw [hi] at hcalls
    have hsame : (∃ e ∈ s'.issued, e.call = some i ∧ e.DeletesTracked) ↔
        ∃ e ∈ s.issued, e.call = some i ∧ e.DeletesTracked := by
      constructor
      · rintro ⟨e, he, hcall, hdeletes⟩
        exact ⟨e, (step_issued_of_ne hs hl e hcall).mp he, hcall, hdeletes⟩
      · rintro ⟨e, he, hcall, hdeletes⟩
        exact ⟨e, (step_issued_of_ne hs hl e hcall).mpr he, hcall, hdeletes⟩
    simp only [Prospect, hi, hcalls, hsame]
    exact ⟨fun hsent => iff_of_true hsent (storesLate_of_past hpast hc hs hl), fun hnone => hnone⟩

/-- A batch of a direct deregistration deletes what is recorded exactly when no route is
refused. -/
theorem issue_deletesTracked (s : ApisixGateway) (id : String) (ans : Answers)
    (controller call : Option Nat) :
    Issue.DeletesTracked ⟨id, controller, call, s.gateway.routeIDs id,
        (s.gateway.deregisterServiceDirect ans id).2.requests.drop s.gateway.requests.length⟩ ↔
      ∀ routeID ∈ s.gateway.routeIDs id, ans.deleteOk .routes routeID = true := by
  obtain ⟨sent, hsent, hiff⟩ := Gateway.deregisterServiceDirect_requests ans s.gateway id
  unfold Issue.DeletesTracked
  rw [hsent, List.drop_left]
  exact hiff

/-- A section of `Stop` inside the deregistration changes nothing about the flag. -/
theorem prospect_step_stopping (h : s.Deregistering i c id) {pc : StopPc}
    (hi : s.calls i = some ⟨.deregisterService id, .stopping c [] pc⟩) (hsilent : s.Silent i)
    (hs : s.Section i o s') : s'.Place i c id ∧ (s'.Prospect i c ↔ s.Prospect i c) := by
  obtain ⟨ctl, hc, rfl | rfl | ⟨hwhy, rfl⟩⟩ := hs.of_stopping hi
  · refine ⟨.stopping .cancel (update_self ..) hsilent, ?_⟩
    simp [Prospect, setCall, setController, hi, hc, Controller.Hopeful, Controller.Past]
  · refine ⟨.stopping .wait (update_self ..) hsilent, ?_⟩
    simp [Prospect, setCall, setController, hi, hc, Controller.Hopeful, Controller.Past]
  · obtain ⟨owner, howned⟩ := h.orderly.owned
    have hclosed := howned.closed_of_stop h.orderly.stopping hc hi hwhy
    refine ⟨.stopped (update_self ..) ?_ hsilent, ?_⟩
    · intro ctl' hc'
      obtain rfl : { ctl with stopped := true } = ctl' := by
        simpa [setCall, setController] using hc'
      exact Or.inr hclosed
    · simp [Prospect, setCall, setController, afterStop, hi, hc, Controller.Hopeful,
        Controller.Past]

/-- The sections of a deregistration after `Stop`: it returns or is going to delete. -/
theorem Section.of_stopped (hs : s.Section i o s') {d : Option Nat}
    (hi : s.calls i = some ⟨.deregisterService id, .stopped d⟩) :
    (s.gateway.config.shouldDeregisterOnShutdown = true →
        ∃ ctl, d.bind s.controllers = some ctl ∧ ctl.isLeader = false) ∧
      s' = s.setCall i (.deregisterService id) (.returned none) ∨
    (∀ ctl, d.bind s.controllers = some ctl → ctl.isLeader = true) ∧
      s' = s.setCall i (.deregisterService id) (.deleting d) := by
  cases hs with
  | keep id₁ d₁ hi₁ hwhy =>
    rw [hi] at hi₁
    cases hi₁
    exact Or.inl ⟨hwhy, rfl⟩
  | agree id₁ d₁ hi₁ _ hleader =>
    rw [hi] at hi₁
    cases hi₁
    exact Or.inr ⟨hleader, rfl⟩
  | _ =>
    have heq := hi.symm.trans ‹s.calls i = some _›
    cases heq

/-- The last section of a deregistration that deletes. -/
theorem Section.of_deleting (hs : s.Section i o s') {d : Option Nat}
    (hi : s.calls i = some ⟨.deregisterService id, .deleting d⟩) :
    s' = (s.issue (s.gateway.deregisterServiceDirect o.answers id).2 id d (some i)).setCall i
      (.deregisterService id) (.returned (s.gateway.deregisterServiceDirect o.answers id).1) := by
  cases hs with
  | delete id₁ d₁ hi₁ =>
    rw [hi] at hi₁
    cases hi₁
    rfl
  | _ =>
    have heq := hi.symm.trans ‹s.calls i = some _›
    cases heq

/-- The deregistration goes on to delete exactly when the flag is up. -/
theorem prospect_step_asking (h : s.Deregistering i c id)
    (hi : s.calls i = some ⟨.deregisterService id, .stopped (some c)⟩) (hpast : s.PastAt c)
    (hsilent : s.Silent i) (hs : s.Section i o s') (hc : s.controllers c = some ctl) :
    s'.Place i c id ∧ (s'.Prospect i c ↔ ctl.isLeader = true) := by
  rcases hs.of_stopped hi with ⟨hwhy, rfl⟩ | ⟨hleader, rfl⟩
  · obtain ⟨ctl₁, hc₁, hflag⟩ := hwhy h.should
    rw [Option.bind_some, hc] at hc₁
    cases hc₁
    refine ⟨.returned none (update_self ..) hpast, ?_⟩
    simp only [Prospect, setCall, update_self, hflag, Bool.false_eq_true, iff_false]
    rintro ⟨e, he, hcall, -⟩
    exact hsilent e he hcall
  · refine ⟨.deleting (update_self ..) hpast hsilent, ?_⟩
    simp only [Prospect, setCall, update_self, true_iff]
    exact hleader ctl hc

/-- The deletion is sent exactly when no recorded route is refused. -/
theorem prospect_step_deleting
    (hi : s.calls i = some ⟨.deregisterService id, .deleting (some c)⟩) (hpast : s.PastAt c)
    (hsilent : s.Silent i) (hs : s.Section i o s') :
    s'.Place i c id ∧ (s'.Prospect i c ↔
      ∀ routeID ∈ s.gateway.routeIDs id, o.answers.deleteOk .routes routeID = true) := by
  obtain rfl := hs.of_deleting hi
  refine ⟨.returned _ (update_self ..) hpast, ?_⟩
  rw [← issue_deletesTracked s id o.answers (some c) (some i)]
  simp only [Prospect, setCall, update_self, issue, List.mem_append, List.mem_singleton]
  constructor
  · rintro ⟨e, hold | rfl, hcall, hdeletes⟩
    · exact absurd hcall (hsilent e hold)
    · exact hdeletes
  · intro hdeletes
    exact ⟨_, Or.inr rfl, rfl, hdeletes⟩

/-- A call that has returned executes no section. -/
theorem not_section_of_returned {op : Op} {err : Option String}
    (hi : s.calls i = some ⟨op, .returned err⟩) (hs : s.step (.proceed i o) = some s') : False := by
  simp [step, proceed, hi] at hs

/-- The sections of the deregistration itself: it goes on, asks for the flag, deletes. -/
theorem prospect_step_own (h : s.Deregistering i c id) (hs : s.step (.proceed i o) = some s') :
    s'.Place i c id ∧ (s.Prospect i c → (s'.Prospect i c ↔ s.StoresLate i c (.proceed i o))) ∧
      (¬ s.Prospect i c → ¬ s'.Prospect i c) := by
  obtain ⟨ctl, hc, hengaged⟩ := h.engaged
  cases h.place with
  | stopping pc hi hsilent =>
    have hguard : s.StoresLate i c (.proceed i o) := by simp [StoresLate, Ready, hi]
    obtain ⟨hplace, hsame⟩ := prospect_step_stopping h hi hsilent (proceed_section hs)
    rw [hsame]
    exact ⟨hplace, fun hyes => iff_of_true hyes hguard, fun hno => hno⟩
  | stopped hi hpast hsilent =>
    have hguard : s.StoresLate i c (.proceed i o) ↔ ctl.callback ≠ .spawned := by
      simp [StoresLate, Ready, hi, hc]
    have hbefore : s.Prospect i c ↔ ctl.callback = .spawned ∨ ctl.isLeader = true := by
      simp [Prospect, hi, hc, Controller.Hopeful, hpast ctl hc]
    have hdown : ctl.callback = .spawned → ctl.isLeader = false :=
      fun hspawned => (h.consistent c ctl hc).unstored (Or.inr hspawned)
    obtain ⟨hplace, hafter⟩ :=
      prospect_step_asking h hi hpast hsilent (proceed_section hs) hc
    rw [hguard, hbefore, hafter]
    refine ⟨hplace, ?_, fun hno hyes => hno (Or.inr hyes)⟩
    rintro (hspawned | hflag)
    · simp [hspawned, hdown hspawned]
    · refine iff_of_true hflag fun hspawned => ?_
      rw [hdown hspawned] at hflag
      cases hflag
  | deleting hi hpast hsilent =>
    have hguard : s.StoresLate i c (.proceed i o) ↔
        ∀ routeID ∈ s.gateway.routeIDs id, o.answers.deleteOk .routes routeID = true := by
      simp [StoresLate, Ready, hi]
    obtain ⟨hplace, hafter⟩ := prospect_step_deleting hi hpast hsilent (proceed_section hs)
    rw [hguard, hafter]
    refine ⟨hplace, fun _ => Iff.rfl, fun hno => absurd ?_ hno⟩
    simp [Prospect, hi]
  | returned err hi hpast => exact (not_section_of_returned hi hs).elim

/-- Every step keeps the deregistration on its way. -/
theorem Deregistering.step (h : s.Deregistering i c id) (hs : s.step l = some s') :
    s'.Deregistering i c id := by
  obtain ⟨ctl, hc, hengaged⟩ := h.engaged
  refine ⟨h.orderly.step hs, h.consistent.step hs, ?_, ?_, ?_⟩
  · rw [step_config hs]
    exact h.should
  · obtain ⟨ctl', hc', ⟨e, ans, -, he⟩ | ⟨-, a, b, d, rfl⟩⟩ := step_follows h.orderly.born hs hc
    · exact ⟨ctl', hc', hengaged.event he⟩
    · exact ⟨_, hc', hengaged⟩
  · by_cases hl : ∃ o, l = .proceed i o
    · obtain ⟨o, rfl⟩ := hl
      exact (prospect_step_own h hs).1
    · exact (h.place.step_other h.orderly hc hs fun o heq => hl ⟨o, heq⟩).1

/-- Every step ends the prospect of a deletion exactly when it breaks the order of the stores, or
meets a refused route. -/
theorem Deregistering.prospect_step (h : s.Deregistering i c id) (hs : s.step l = some s') :
    (s.Prospect i c → (s'.Prospect i c ↔ s.StoresLate i c l)) ∧
      (¬ s.Prospect i c → ¬ s'.Prospect i c) := by
  by_cases hl : ∃ o, l = .proceed i o
  · obtain ⟨o, rfl⟩ := hl
    exact (prospect_step_own h hs).2
  · exact prospect_step_other h hs fun o heq => hl ⟨o, heq⟩

/-- Whatever a call has sent, it has returned since. -/
def SentByReturned (s : ApisixGateway) : Prop :=
  ∀ e ∈ s.issued, ∀ i, e.call = some i → ∃ op err, s.calls i = some ⟨op, .returned err⟩

/-- A section that sends is the last one of its call. -/
theorem SentByReturned.step (h : s.SentByReturned) (horderly : s.Orderly)
    (hs : s.step l = some s') : s'.SentByReturned := by
  intro e he i hcall
  by_cases hl : ∃ o, l = .proceed i o
  · obtain ⟨o, rfl⟩ := hl
    have hnew : e ∉ s.issued := by
      intro hold
      obtain ⟨op, err, hi⟩ := h e hold i hcall
      exact not_section_of_returned hi hs
    cases proceed_section hs with
    | registerDirect svc hi hmode => exact ⟨_, _, update_self ..⟩
    | delete id d hi => exact ⟨_, _, update_self ..⟩
    | _ => exact absurd he hnew
  · have hne : ∀ o, l ≠ .proceed i o := fun o heq => hl ⟨o, heq⟩
    obtain ⟨op, err, hi⟩ := h e ((step_issued_of_ne hs hne e hcall).mp he) i hcall
    obtain ⟨owner, howned⟩ := horderly.owned
    exact ⟨op, err, by rw [step_calls_of_ne hs (howned.lt_invoked hi) hne]; exact hi⟩

/-- What holds in every state of a gateway in leader mode. -/
theorem reachable_facts (hs : leaderSystem.Reachable s) :
    s.Orderly ∧ s.AllConsistent ∧ s.gateway.config.mode = .leader ∧ s.SentByReturned := by
  refine hs.invariant (P := fun t => t.Orderly ∧ t.AllConsistent ∧
    t.gateway.config.mode = .leader ∧ t.SentByReturned) ?_ ?_
  · intro t hinit
    refine ⟨orderly_of_init hinit, allConsistent_of_init hinit, hinit.1, ?_⟩
    obtain ⟨-, -, -, -, -, -, -, -, -, hissued⟩ := hinit
    simp [SentByReturned, hissued]
  · rintro t l t' ⟨horderly, hcons, hmode, hsent⟩ hstep
    refine ⟨horderly.step hstep, hcons.step hstep, ?_, hsent.step horderly hstep⟩
    rw [step_config hstep]
    exact hmode

/-- A deregistration that is called while the recorded controller leads takes it out of the
table. -/
theorem deregistering_of_take (hs : leaderSystem.Reachable s)
    (hshould : s.gateway.config.deregisterOnShutdown = some true)
    (hi : s.calls i = some ⟨.deregisterService id, .entry⟩) (hlookup : s.lookup id = some c)
    (hc : s.controllers c = some ctl) (hleading : ctl.election = .leading)
    (hcall : s.step (.proceed i o) = some s₁) : s₁.Deregistering i c id ∧ s₁.Prospect i c := by
  obtain ⟨horderly, hcons, hmode, hsent⟩ := reachable_facts hs
  have horderly₁ := horderly.step hcall
  have hcons₁ := hcons.step hcall
  have hsilent : s.Silent i := by
    intro e he hcall
    obtain ⟨op, err, hreturned⟩ := hsent e he i hcall
    rw [hi] at hreturned
    cases hreturned
  cases proceed_section hcall with
  | take id₁ pc hi₁ hmu hpc =>
    rw [hi] at hi₁
    cases hi₁
    rcases hpc with ⟨d, hd, rfl⟩ | ⟨hnone, -⟩
    · rw [hlookup] at hd
      cases hd
      refine ⟨⟨horderly₁, hcons₁, ?_, ⟨ctl, hc, ?_⟩, ?_⟩, ?_⟩
      · change s.gateway.config.shouldDeregisterOnShutdown = true
        simp [ApisixConfig.shouldDeregisterOnShutdown, hshould]
      · simp [Controller.Engaged, hleading]
      · exact .stopping .lock (update_self ..) hsilent
      · simp [Prospect, setCall, hc, Controller.Hopeful, Controller.Past, hleading]
    · rw [hlookup] at hnone
      cases hnone
  | skip op hi₁ hother => exact absurd hmode hother
  | deregisterDirect id₁ hi₁ hsingle hdelete =>
    rw [hmode] at hsingle
    cases hsingle
  | _ =>
    have heq := hi.symm.trans ‹s.calls i = some _›
    cases heq

/-- With deletion on shutdown, a deregistration called while the recorded controller leads sends the
deletion of the recorded routes and the upstream exactly when the flag is stored after
`OnStoppedLeading` and before the call asks for it, and no recorded route is refused. -/
theorem leader_deletes_iff_stores_late (hs : leaderSystem.Reachable s)
    (hshould : s.gateway.config.deregisterOnShutdown = some true)
    (hi : s.calls i = some ⟨.deregisterService id, .entry⟩) (hlookup : s.lookup id = some c)
    (hc : s.controllers c = some ctl) (hleading : ctl.election = .leading)
    (hcall : s.step (.proceed i o) = some s₁) (hrun : leaderSystem.run s₁ ls = some s')
    {err : Option String} (hreturned : s'.calls i = some ⟨.deregisterService id, .returned err⟩) :
    (∃ e ∈ s'.issued, e.call = some i ∧ e.DeletesTracked) ↔
      leaderSystem.Guarded (fun t l => t.StoresLate i c l) s₁ ls := by
  obtain ⟨hstart, hprospect⟩ := deregistering_of_take hs hshould hi hlookup hc hleading hcall
  have hend : s'.Prospect i c ↔ ∃ e ∈ s'.issued, e.call = some i ∧ e.DeletesTracked := by
    simp only [Prospect, hreturned]
  rw [← hend]
  exact leaderSystem.final_iff_guarded (I := fun t => t.Deregistering i c id)
    (P := fun t => t.Prospect i c) (fun t l t' ht hstep => ht.step hstep)
    (fun t l t' ht hp hstep => (ht.prospect_step hstep).1 hp)
    (fun t l t' ht hp hstep => (ht.prospect_step hstep).2 hp) hstart hprospect hrun

/-- The sections of the deregistration after its first one, around the end of the election. -/
def shutdown (between : List Label) : List Label :=
  [.proceed 1 plainOutcome, .proceed 1 plainOutcome, event .withdraw, event .stoppedLeading] ++
    between ++ [event .closeDone, .proceed 1 plainOutcome, .proceed 1 plainOutcome]

/-- A leader whose flag is stored late deletes its service. -/
theorem leader_deletes_after_late_store :
    ∃ s s₁ s' ctl, leaderSystem.run (podGateway (some true)) (registration ++ [event .win] ++
        [.invoke (.deregisterService "svc")]) = some s ∧
      s.controllers 0 = some ctl ∧ ctl.election = .leading ∧
      s.step (.proceed 1 plainOutcome) = some s₁ ∧
      leaderSystem.run s₁ (shutdown [event .storeTrue] ++ [.proceed 1 plainOutcome]) = some s' ∧
      ∃ e ∈ s'.issued, e.call = some 1 ∧ e.DeletesTracked := by
  obtain ⟨s, s₁, s', ctl, hrun, hshould, hi, hlookup, hc, hleading, hcall, hrest, hreturned,
      hguard⟩ : ∃ s s₁ s' ctl,
      leaderSystem.run (podGateway (some true)) (registration ++ [event .win] ++
        [.invoke (.deregisterService "svc")]) = some s ∧
      s.gateway.config.deregisterOnShutdown = some true ∧
      s.calls 1 = some ⟨.deregisterService "svc", .entry⟩ ∧ s.lookup "svc" = some 0 ∧
      s.controllers 0 = some ctl ∧ ctl.election = .leading ∧
      s.step (.proceed 1 plainOutcome) = some s₁ ∧
      leaderSystem.run s₁ (shutdown [event .storeTrue] ++ [.proceed 1 plainOutcome]) = some s' ∧
      s'.calls 1 = some ⟨.deregisterService "svc", .returned none⟩ ∧
      decide (leaderSystem.Guarded (fun t l => t.StoresLate 1 0 l) s₁
        (shutdown [event .storeTrue] ++ [.proceed 1 plainOutcome])) = true :=
    ⟨_, _, _, _, rfl, rfl, rfl, rfl, rfl, rfl, rfl, rfl, rfl, rfl⟩
  refine ⟨s, s₁, s', ctl, hrun, hc, hleading, hcall, hrest, ?_⟩
  exact (leader_deletes_iff_stores_late ⟨_, _, podGateway_init (some true), hrun⟩ hshould hi
    hlookup hc hleading hcall hrest hreturned).mpr (of_decide_eq_true hguard)

/-- A leader with its flag up and its service registered returns without deleting anything. -/
theorem leader_keeps_routes_on_deregister :
    ∃ s s₁ s' ctl, leaderSystem.init (podGateway (some true)) ∧
      leaderSystem.run (podGateway (some true)) (registration ++
        [event .win, event .storeTrue, event .reconcile] ++
        [.invoke (.deregisterService "svc")]) = some s ∧
      s.controllers 0 = some ctl ∧ ctl.election = .leading ∧ ctl.isLeader = true ∧
      s.gateway.routeIDs "svc" = [routeID "svc" 0] ∧
      s.step (.proceed 1 plainOutcome) = some s₁ ∧
      leaderSystem.run s₁ (shutdown []) = some s' ∧
      s'.calls 1 = some ⟨.deregisterService "svc", .returned none⟩ ∧
      s'.gateway.requests = s.gateway.requests ∧
      ¬ ∃ e ∈ s'.issued, e.call = some 1 ∧ e.DeletesTracked := by
  refine ⟨_, _, _, _, podGateway_init (some true), rfl, rfl, rfl, rfl, rfl, rfl, rfl, rfl, rfl, ?_⟩
  rintro ⟨e, he, hcall, -⟩
  cases List.mem_singleton.mp he
  cases hcall

end ApisixGateway

end Stardust.Register
