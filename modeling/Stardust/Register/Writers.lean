import Stardust.Register.Leadership

/-!
# Who writes to APISIX in leader mode

The goroutine of a leader writes on behalf of its controller, and a deregistration on behalf of
the controller it took out of the table. A deregistration that finds no controller there deletes
all the same when the settings ask for it, on behalf of nobody.
-/

namespace Stardust.Register

open Stardust.Core Function

namespace ApisixGateway

variable {s s' s₀ : ApisixGateway} {i j c : Nat} {id : String} {l : Label} {o : Outcome}
  {ls : List Label}

/-- The controller is one of the service. -/
def Serves (s : ApisixGateway) (c : Nat) (id : String) : Prop :=
  ∃ ctl, s.controllers c = some ctl ∧ ctl.service.id = id

/-- The controller is one of the service and has won the lease. -/
def Led (s : ApisixGateway) (c : Nat) (id : String) : Prop :=
  ∃ ctl, s.controllers c = some ctl ∧ ctl.service.id = id ∧ ctl.Won

/-- The batch is sent on behalf of a controller of its service that has won the lease. -/
def Authorised (s : ApisixGateway) (e : Issue) : Prop :=
  ∃ c, e.controller = some c ∧ s.Led c e.service

/-- Every request belongs to a batch, and every batch is sent on behalf of a controller of its
service that has won the lease. -/
def SingleWriter (s : ApisixGateway) : Prop :=
  (∀ r ∈ s.gateway.requests, ∃ e ∈ s.issued, r ∈ e.requests) ∧ ∀ e ∈ s.issued, s.Authorised e

/-- The service that a call is about to deregister. -/
def deregisters (s : ApisixGateway) (i : Nat) : Option String :=
  match s.calls i with
  | some ⟨.deregisterService id, .entry⟩ => some id
  | _ => none

/-- A deregistration that is to delete finds a controller in the table. -/
def FindsController (s : ApisixGateway) : Label → Prop
  | .proceed i _ => ∀ id ∈ s.deregisters i,
      s.gateway.config.shouldDeregisterOnShutdown = true → s.lookup id ≠ none
  | _ => True

instance (s : ApisixGateway) : ∀ l, Decidable (s.FindsController l)
  | .proceed i _ => inferInstanceAs (Decidable (∀ id ∈ s.deregisters i,
      s.gateway.config.shouldDeregisterOnShutdown = true → s.lookup id ≠ none))
  | .invoke _ => isTrue trivial
  | .elect _ _ _ => isTrue trivial

/-- On whose behalf a deregistration stands where it does. -/
def Behalf (s : ApisixGateway) (id : String) : Pc → Prop
  | .stopping c rest _ => rest = [] ∧ s.Serves c id
  | .stopped d =>
    s.gateway.config.shouldDeregisterOnShutdown = true → ∃ c, d = some c ∧ s.Serves c id
  | .deleting d => ∃ c, d = some c ∧ s.Led c id
  | _ => True

/-- Everything recorded, in progress or sent is on behalf of a controller of its service. -/
structure Attributed (s : ApisixGateway) : Prop where
  /-- The table records controllers of their services. -/
  table : ∀ id c, (id, c) ∈ s.leaderControllers → s.Serves c id
  /-- Deregistrations in progress know their controller. -/
  calls : ∀ i id pc, s.calls i = some ⟨.deregisterService id, pc⟩ → s.Behalf id pc
  /-- What was sent was authorised. -/
  issued : ∀ e ∈ s.issued, s.Authorised e

/-- A controller keeps its service, and a lease won stays won. -/
theorem follows_frame (hborn : s.Born) (hs : s.step l = some s') {ctl : Controller}
    (hc : s.controllers c = some ctl) :
    ∃ ctl', s'.controllers c = some ctl' ∧ ctl'.service = ctl.service ∧ (ctl.Won → ctl'.Won) := by
  obtain ⟨ctl', hc', ⟨e, ans, -, he⟩ | ⟨-, a, b, d, rfl⟩⟩ := step_follows hborn hs hc
  · obtain ⟨hservice, -, -, -, hwon, -⟩ := Controller.event_frame he
    exact ⟨ctl', hc', hservice, hwon⟩
  · exact ⟨_, hc', rfl, fun h => h⟩

private theorem Serves.step (h : s.Serves c id) (hborn : s.Born) (hs : s.step l = some s') :
    s'.Serves c id := by
  obtain ⟨ctl, hc, hservice⟩ := h
  obtain ⟨ctl', hc', hsame, -⟩ := follows_frame hborn hs hc
  exact ⟨ctl', hc', by rw [hsame, hservice]⟩

private theorem Led.step (h : s.Led c id) (hborn : s.Born) (hs : s.step l = some s') :
    s'.Led c id := by
  obtain ⟨ctl, hc, hservice, hwon⟩ := h
  obtain ⟨ctl', hc', hsame, hkeep⟩ := follows_frame hborn hs hc
  exact ⟨ctl', hc', by rw [hsame, hservice], hkeep hwon⟩

private theorem Authorised.step {e : Issue} (h : s.Authorised e) (hborn : s.Born)
    (hs : s.step l = some s') : s'.Authorised e := by
  obtain ⟨c, hcontroller, hled⟩ := h
  exact ⟨c, hcontroller, hled.step hborn hs⟩

private theorem Behalf.step {pc : Pc} (h : s.Behalf id pc) (hborn : s.Born)
    (hs : s.step l = some s') : s'.Behalf id pc := by
  cases pc with
  | stopping c rest pc => exact ⟨h.1, h.2.step hborn hs⟩
  | stopped d =>
    intro hshould
    rw [step_config hs] at hshould
    obtain ⟨c, hd, hserves⟩ := h hshould
    exact ⟨c, hd, hserves.step hborn hs⟩
  | deleting d =>
    obtain ⟨c, hd, hled⟩ := h
    exact ⟨c, hd, hled.step hborn hs⟩
  | entry => trivial
  | returned err => trivial

/-- Every step records controllers of their services only. -/
theorem Attributed.table_step (h : s.Attributed) (hborn : s.Born) (hs : s.step l = some s') :
    ∀ id c, (id, c) ∈ s'.leaderControllers → s'.Serves c id := by
  intro id c hmem
  have hkeep : (id, c) ∈ s.leaderControllers → s'.Serves c id :=
    fun hold => (h.table id c hold).step hborn hs
  cases l with
  | invoke op =>
    cases hs
    exact hkeep hmem
  | proceed i o =>
    cases proceed_section hs with
    | take id' pc hi hmu hpc => exact hkeep (List.mem_filter.mp hmem).1
    | takeAll pc hi hmu hperm hpc => cases hmem
    | install svc d ctl ctl' hi hnew hstart =>
      rcases List.mem_cons.mp hmem with heq | hold
      · cases heq
        refine ⟨ctl', update_self .., ?_⟩
        rw [(Controller.start_of_new hnew hstart).1]
      · exact hkeep (List.mem_filter.mp hold).1
    | _ => exact hkeep hmem
  | elect d e ans =>
    obtain ⟨ctl, ctl', -, -, ⟨-, rfl⟩ | rfl⟩ := elect_cases hs
    · exact hkeep hmem
    · exact hkeep hmem

/-- A guarded section leaves its deregistration with a controller. -/
theorem Attributed.section_behalf (h : s.Attributed) (hborn : s.Born) (hcons : s.AllConsistent)
    (hmode : s.gateway.config.mode = .leader) (hguard : s.FindsController (.proceed i o))
    (hs : s.step (.proceed i o) = some s') {pc : Pc}
    (hi' : s'.calls i = some ⟨.deregisterService id, pc⟩) : s'.Behalf id pc := by
  have hserves : ∀ c, s.Serves c id → s'.Serves c id := fun c hc => hc.step hborn hs
  have hled : ∀ c, s.Led c id → s'.Led c id := fun c hc => hc.step hborn hs
  cases proceed_section hs with
  | skip op hi hother => exact absurd hmode hother
  | registerDirect svc hi hsingle =>
    rw [hmode] at hsingle
    cases hsingle
  | deregisterDirect id' hi hsingle hshould =>
    rw [hmode] at hsingle
    cases hsingle
  | lockTable svc pc' hi hmu hpc => simp [setCall] at hi'
  | take id' pc' hi hmu hpc =>
    obtain ⟨rfl, rfl⟩ : id' = id ∧ pc' = pc := by simpa [setCall] using hi'
    rcases hpc with ⟨c, hlookup, rfl⟩ | ⟨hnone, rfl⟩
    · exact ⟨rfl, hserves c (h.table _ _ (mem_of_lookup hlookup))⟩
    · intro hshould
      exact absurd hnone (hguard _ (by simp [deregisters, hi]) hshould)
  | takeAll pc' hi hmu hperm hpc => simp [setCall] at hi'
  | stopLock op c rest ctl hi hc hstarted =>
    obtain ⟨rfl, rfl⟩ : op = .deregisterService id ∧ .stopping c rest .cancel = pc := by
      simpa [setCall] using hi'
    obtain ⟨hrest, hold⟩ := h.calls _ _ _ hi
    exact ⟨hrest, hserves c hold⟩
  | stopCancel op c rest ctl hi hc =>
    obtain ⟨rfl, rfl⟩ : op = .deregisterService id ∧ .stopping c rest .wait = pc := by
      simpa [setCall] using hi'
    obtain ⟨hrest, hold⟩ := h.calls _ _ _ hi
    exact ⟨hrest, hserves c hold⟩
  | stopReturn op c rest pc' ctl hi hc hwhy =>
    obtain ⟨rfl, rfl⟩ : op = .deregisterService id ∧ afterStop c rest = pc := by
      simpa [setCall] using hi'
    obtain ⟨rfl, hold⟩ := h.calls _ _ _ hi
    exact fun _ => ⟨c, rfl, hserves c hold⟩
  | registerFailed svc d err hi => simp [setCall] at hi'
  | install svc d ctl ctl' hi hnew hstart => simp [setCall] at hi'
  | keep id' d hi hwhy =>
    obtain ⟨rfl, rfl⟩ : id' = id ∧ .returned none = pc := by simpa [setCall] using hi'
    trivial
  | agree id' d hi hshould hleader =>
    obtain ⟨rfl, rfl⟩ : id' = id ∧ .deleting d = pc := by simpa [setCall] using hi'
    obtain ⟨c, rfl, ctl, hc, hservice⟩ := h.calls _ _ _ hi hshould
    refine ⟨c, rfl, hled c ⟨ctl, hc, hservice, fun habsent => ?_⟩⟩
    have hflag := hleader ctl hc
    rw [(hcons c ctl hc).unstored (Or.inl habsent)] at hflag
    cases hflag
  | closed d hi => simp [setCall] at hi'
  | delete id' d hi =>
    obtain ⟨-, rfl⟩ : id' = id ∧
        .returned (s.gateway.deregisterServiceDirect o.answers id').1 = pc := by
      simpa [setCall] using hi'
    trivial

/-- Every guarded step keeps deregistrations on behalf of a controller. -/
theorem Attributed.calls_step (h : s.Attributed) (horderly : s.Orderly) (hcons : s.AllConsistent)
    (hmode : s.gateway.config.mode = .leader) (hguard : s.FindsController l)
    (hs : s.step l = some s') :
    ∀ i id pc, s'.calls i = some ⟨.deregisterService id, pc⟩ → s'.Behalf id pc := by
  intro i id pc hi'
  by_cases hl : ∃ o, l = .proceed i o
  · obtain ⟨o, rfl⟩ := hl
    exact h.section_behalf horderly.born hcons hmode hguard hs hi'
  · by_cases hlt : i < s.invoked
    · rw [step_calls_of_ne hs hlt fun o heq => hl ⟨o, heq⟩] at hi'
      exact (h.calls i id pc hi').step horderly.born hs
    · obtain ⟨owner, howned⟩ := horderly.owned
      have hnone := howned.uncalled i (by omega)
      cases l with
      | invoke op =>
        cases hs
        change update s.calls s.invoked _ i = _ at hi'
        rw [update_apply] at hi'
        split at hi'
        · cases hi'
          trivial
        · rw [hnone] at hi'
          cases hi'
      | proceed j o =>
        obtain ⟨call, hcalls⟩ := (proceed_section hs).calls
        rw [hcalls, update_of_ne, hnone] at hi'
        · cases hi'
        · rintro rfl
          exact hl ⟨o, rfl⟩
      | elect c e ans =>
        obtain ⟨ctl, ctl', -, -, ⟨-, rfl⟩ | rfl⟩ := elect_cases hs
        · exact absurd (hnone.symm.trans hi') (by simp)
        · exact absurd (hnone.symm.trans hi') (by simp)

/-- Every step sends only on behalf of a controller that has won the lease. -/
theorem Attributed.issued_step (h : s.Attributed) (hborn : s.Born)
    (hmode : s.gateway.config.mode = .leader) (hs : s.step l = some s') :
    ∀ e ∈ s'.issued, s'.Authorised e := by
  intro e he
  have hkeep : e ∈ s.issued → s'.Authorised e := fun hold => (h.issued e hold).step hborn hs
  cases l with
  | invoke op =>
    cases hs
    exact hkeep he
  | proceed i o =>
    cases proceed_section hs with
    | registerDirect svc hi hsingle =>
      rw [hmode] at hsingle
      cases hsingle
    | delete id d hi =>
      rcases List.mem_append.mp he with hold | hnew
      · exact hkeep hold
      · cases List.mem_singleton.mp hnew
        obtain ⟨c, rfl, hled⟩ := h.calls _ _ _ hi
        exact ⟨c, rfl, hled.step hborn hs⟩
    | _ => exact hkeep he
  | elect c e' ans =>
    obtain ⟨ctl, ctl', hc, hevent, ⟨rfl, rfl⟩ | rfl⟩ := elect_cases hs
    · rcases List.mem_append.mp he with hold | hnew
      · exact hkeep hold
      · cases List.mem_singleton.mp hnew
        refine ⟨c, rfl, Led.step ⟨ctl, hc, rfl, fun habsent => ?_⟩ hborn hs⟩
        simp [Controller.event, habsent] at hevent
    · exact hkeep he

/-- Every request sent is in a batch. -/
def Logged (s : ApisixGateway) : Prop :=
  ∀ r ∈ s.gateway.requests, ∃ e ∈ s.issued, r ∈ e.requests

/-- A batch holds the requests that its gateway has sent beyond the old ones. -/
theorem Logged.issue (h : s.Logged) {g : Gateway} {service : String} {controller call : Option Nat}
    (hsent : ∃ sent, g.requests = s.gateway.requests ++ sent) :
    (s.issue g service controller call).Logged := by
  obtain ⟨sent, hsent⟩ := hsent
  intro r hr
  change r ∈ g.requests at hr
  rw [hsent] at hr
  rcases List.mem_append.mp hr with hold | hnew
  · obtain ⟨e, he, hre⟩ := h r hold
    exact ⟨e, List.mem_append_left _ he, hre⟩
  · refine ⟨_, List.mem_append_right _ (List.mem_singleton_self _), ?_⟩
    change r ∈ g.requests.drop s.gateway.requests.length
    rw [hsent, List.drop_left]
    exact hnew

/-- Every step logs what it sends. -/
theorem Logged.step (h : s.Logged) (hs : s.step l = some s') : s'.Logged := by
  cases l with
  | invoke op =>
    cases hs
    exact h
  | proceed i o =>
    cases proceed_section hs with
    | registerDirect svc hi hmode =>
      obtain ⟨sent, hsent, -⟩ := Gateway.registerServiceDirect_requests o.answers s.gateway svc
      exact h.issue ⟨sent, hsent⟩
    | delete id d hi =>
      obtain ⟨sent, hsent, -⟩ := Gateway.deregisterServiceDirect_requests o.answers s.gateway id
      exact h.issue ⟨sent, hsent⟩
    | _ => exact h
  | elect c e ans =>
    obtain ⟨ctl, ctl', -, -, ⟨-, rfl⟩ | rfl⟩ := elect_cases hs
    · obtain ⟨sent, hsent, -⟩ := Gateway.registerServiceDirect_requests ans s.gateway ctl.service
      exact h.issue ⟨sent, hsent⟩
    · exact h

/-- A gateway starts with nothing recorded and nothing sent. -/
theorem attributed_of_init (hinit : leaderSystem.init s) : s.Logged ∧ s.Attributed := by
  obtain ⟨-, hrequests, -, -, -, htable, -, hcalls, -, hissued⟩ := hinit
  refine ⟨?_, ?_, ?_, ?_⟩
  · simp [Logged, hrequests]
  · simp [htable]
  · simp [hcalls]
  · simp [hissued]

/-- In every run in which each deregistration that is to delete finds a controller in the table,
every request is sent on behalf of a controller of its service that has won the lease. -/
theorem leader_single_writer (hinit : leaderSystem.init s₀)
    (hguard : leaderSystem.Guarded FindsController s₀ ls)
    (hrun : leaderSystem.run s₀ ls = some s) : s.SingleWriter := by
  obtain ⟨-, -, -, hlogged, hattributed⟩ := leaderSystem.run_guarded
    (P := fun t => t.Orderly ∧ t.AllConsistent ∧ t.gateway.config.mode = .leader ∧ t.Logged ∧
      t.Attributed)
    (fun t l t' ⟨horderly, hcons, hmode, hlogged, ht⟩ hg hstep =>
      ⟨horderly.step hstep, hcons.step hstep, (congrArg _ (step_config hstep)).trans hmode,
        hlogged.step hstep, ht.table_step horderly.born hstep,
        ht.calls_step horderly hcons hmode hg hstep, ht.issued_step horderly.born hmode hstep⟩)
    ⟨orderly_of_init hinit, allConsistent_of_init hinit, hinit.1, attributed_of_init hinit⟩
    hguard hrun
  exact ⟨hlogged, hattributed.issued⟩

/-- A leader that registers its service and is then deregistered is the only writer. -/
theorem leader_single_writer_of_one_leader :
    ∃ s, leaderSystem.run (podGateway (some true)) (registration ++
        [event .win, event .storeTrue, event .reconcile] ++ deregistration ++
        [event .withdraw, event .stoppedLeading, event .closeDone, .proceed 1 plainOutcome,
          .proceed 1 plainOutcome]) = some s ∧
      s.issued.length = 1 ∧ s.SingleWriter := by
  obtain ⟨s, hrun, hissued⟩ : ∃ s, leaderSystem.run (podGateway (some true)) (registration ++
        [event .win, event .storeTrue, event .reconcile] ++ deregistration ++
        [event .withdraw, event .stoppedLeading, event .closeDone, .proceed 1 plainOutcome,
          .proceed 1 plainOutcome]) = some s ∧ s.issued.length = 1 := ⟨_, rfl, rfl⟩
  exact ⟨s, hrun, hissued, leader_single_writer (podGateway_init (some true)) (by decide) hrun⟩

/-- A gateway that never had a controller deletes the upstream of a service. -/
theorem leader_writes_without_controller :
    ∃ s, leaderSystem.init (podGateway (some true)) ∧
      leaderSystem.run (podGateway (some true)) [.invoke (.deregisterService "svc"),
        .proceed 0 plainOutcome, .proceed 0 plainOutcome, .proceed 0 plainOutcome] = some s ∧
      s.created = 0 ∧ s.gateway.requests = [.delete .upstreams "svc"] ∧ ¬ s.SingleWriter := by
  refine ⟨_, podGateway_init (some true), rfl, rfl, rfl, fun hwriter => ?_⟩
  obtain ⟨c, hnobody, -⟩ := hwriter.2 _ (List.mem_singleton_self _)
  cases hnobody

end ApisixGateway

end Stardust.Register
