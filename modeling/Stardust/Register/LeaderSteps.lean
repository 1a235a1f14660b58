import Stardust.Register.Leader

/-!
# What a step of the gateway can do

Every section of a call is one of a few moves, with the condition under which the source takes
it. The invariants of the gateway are read off these moves, never off the functions.
-/

namespace Stardust.Register

open Function

variable {l : Label}

namespace ApisixGateway

variable {s s' : ApisixGateway} {i j c : Nat} {o : Outcome}

/-- What is looked up is in the table. -/
theorem mem_of_lookup {id : String} (h : s.lookup id = some c) : (id, c) ∈ s.leaderControllers := by
  obtain ⟨p, hfind, rfl⟩ := Option.map_eq_some_iff.mp h
  have hkey : p.1 = id := by simpa using List.find?_some hfind
  rw [← hkey]
  exact List.mem_of_find?_eq_some hfind

/-- The moves of a call. -/
inductive Section (s : ApisixGateway) (i : Nat) (o : Outcome) : ApisixGateway → Prop where
  /-- Nothing is to be done in this mode. -/
  | skip (op : Op) (hi : s.calls i = some ⟨op, .entry⟩) (hmode : s.gateway.config.mode ≠ .leader) :
      Section s i o (s.setCall i op (.returned none))
  /-- A registration writes directly. -/
  | registerDirect (svc : GatewayService) (hi : s.calls i = some ⟨.registerService svc, .entry⟩)
      (hmode : s.gateway.config.mode = .single) :
      Section s i o ((s.issue (s.gateway.registerServiceDirect o.answers svc).2 svc.id none
        (some i)).setCall i (.registerService svc)
          (.returned (s.gateway.registerServiceDirect o.answers svc).1))
  /-- A deregistration is going to delete directly. -/
  | deregisterDirect (id : String) (hi : s.calls i = some ⟨.deregisterService id, .entry⟩)
      (hmode : s.gateway.config.mode = .single)
      (hshould : s.gateway.config.shouldDeregisterOnShutdown = true) :
      Section s i o (s.setCall i (.deregisterService id) (.deleting none))
  /-- A registration locks the table and is going to stop the recorded controller. -/
  | lockTable (svc : GatewayService) (pc : Pc)
      (hi : s.calls i = some ⟨.registerService svc, .entry⟩) (hmu : s.leaderMu = none)
      (hpc : (∃ c, s.lookup svc.id = some c ∧ pc = .stopping c [] .lock) ∨ pc = .stopped none) :
      Section s i o { s.setCall i (.registerService svc) pc with leaderMu := some i }
  /-- A deregistration takes the recorded controller out of the table, if there is one. -/
  | take (id : String) (pc : Pc) (hi : s.calls i = some ⟨.deregisterService id, .entry⟩)
      (hmu : s.leaderMu = none)
      (hpc : (∃ c, s.lookup id = some c ∧ pc = .stopping c [] .lock) ∨
        s.lookup id = none ∧ pc = .stopped none) :
      Section s i o { s.setCall i (.deregisterService id) pc with
        leaderControllers := s.leaderControllers.filter fun p => p.1 ≠ id }
  /-- `Close` takes everything out of the table. -/
  | takeAll (pc : Pc) (hi : s.calls i = some ⟨.close, .entry⟩) (hmu : s.leaderMu = none)
      (hperm : o.order.Perm (s.leaderControllers.map Prod.snd))
      (hpc : (∃ c rest, o.order = c :: rest ∧ pc = .stopping c rest .lock) ∨ pc = .stopped none) :
      Section s i o { s.setCall i .close pc with leaderControllers := [] }
  /-- `Stop` marks the controller as not started. -/
  | stopLock (op : Op) (c : Nat) (rest : List Nat) (ctl : Controller)
      (hi : s.calls i = some ⟨op, .stopping c rest .lock⟩) (hc : s.controllers c = some ctl)
      (hstarted : ctl.started = true) :
      Section s i o ((s.setController c { ctl with started := false }).setCall i op
        (.stopping c rest .cancel))
  /-- `Stop` cancels the context of `run`. -/
  | stopCancel (op : Op) (c : Nat) (rest : List Nat) (ctl : Controller)
      (hi : s.calls i = some ⟨op, .stopping c rest .cancel⟩) (hc : s.controllers c = some ctl) :
      Section s i o ((s.setController c { ctl with cancelled := true }).setCall i op
        (.stopping c rest .wait))
  /-- `Stop` returns, because there is nothing to stop or because `done` is closed. -/
  | stopReturn (op : Op) (c : Nat) (rest : List Nat) (pc : StopPc) (ctl : Controller)
      (hi : s.calls i = some ⟨op, .stopping c rest pc⟩) (hc : s.controllers c = some ctl)
      (hwhy : pc = .lock ∧ ctl.started = false ∨ ctl.election = .closed) :
      Section s i o ((s.setController c { ctl with stopped := true }).setCall i op
        (afterStop c rest))
  /-- No new controller could be made or started. -/
  | registerFailed (svc : GatewayService) (d : Option Nat) (err : String)
      (hi : s.calls i = some ⟨.registerService svc, .stopped d⟩) :
      Section s i o { s.setCall i (.registerService svc) (.returned (some err)) with
        leaderMu := none }
  /-- A new controller is started and recorded. -/
  | install (svc : GatewayService) (d : Option Nat) (ctl ctl' : Controller)
      (hi : s.calls i = some ⟨.registerService svc, .stopped d⟩)
      (hnew : newApisixLeaderController s.settings s.env svc = .ok ctl)
      (hstart : ctl.start o.access = .ok ctl') :
      Section s i o { (s.setController s.created ctl').setCall i (.registerService svc)
          (.returned none) with
        created := s.created + 1
        leaderControllers :=
          (svc.id, s.created) :: s.leaderControllers.filter fun p => p.1 ≠ svc.id
        leaderMu := none }
  /-- A deregistration deletes nothing. -/
  | keep (id : String) (d : Option Nat)
      (hi : s.calls i = some ⟨.deregisterService id, .stopped d⟩)
      (hwhy : s.gateway.config.shouldDeregisterOnShutdown = true →
        ∃ ctl, d.bind s.controllers = some ctl ∧ ctl.isLeader = false) :
      Section s i o (s.setCall i (.deregisterService id) (.returned none))
  /-- A deregistration is going to delete. -/
  | agree (id : String) (d : Option Nat)
      (hi : s.calls i = some ⟨.deregisterService id, .stopped d⟩)
      (hshould : s.gateway.config.shouldDeregisterOnShutdown = true)
      (hleader : ∀ ctl, d.bind s.controllers = some ctl → ctl.isLeader = true) :
      Section s i o (s.setCall i (.deregisterService id) (.deleting d))
  /-- `Close` returns. -/
  | closed (d : Option Nat) (hi : s.calls i = some ⟨.close, .stopped d⟩) :
      Section s i o (s.setCall i .close (.returned none))
  /-- A deregistration deletes and returns. -/
  | delete (id : String) (d : Option Nat)
      (hi : s.calls i = some ⟨.deregisterService id, .deleting d⟩) :
      Section s i o ((s.issue (s.gateway.deregisterServiceDirect o.answers id).2 id d
        (some i)).setCall i (.deregisterService id)
          (.returned (s.gateway.deregisterServiceDirect o.answers id).1))

private theorem enter_section {op : Op} (hi : s.calls i = some ⟨op, .entry⟩)
    (hs : s.enter i op o = some s') : s.Section i o s' := by
  cases op with
  | registerService svc =>
    simp only [enter] at hs
    split at hs
    · next hmode =>
      cases hs
      exact .skip _ hi (by rw [hmode]; simp)
    · next hmode =>
      cases hs
      exact .registerDirect svc hi hmode
    · split at hs
      · cases hs
      · next hmu =>
        cases hs
        refine .lockTable svc _ hi (Option.not_isSome_iff_eq_none.mp hmu) ?_
        cases s.lookup svc.id with
        | some c => exact Or.inl ⟨c, rfl, rfl⟩
        | none => exact Or.inr rfl
  | deregisterService id =>
    simp only [enter] at hs
    split at hs
    · next hmode =>
      cases hs
      exact .skip _ hi (by rw [hmode]; simp)
    · next hmode =>
      split at hs
      · next hshould =>
        cases hs
        exact .deregisterDirect id hi hmode hshould
      · cases hs
        exact .skip _ hi (by rw [hmode]; simp)
    · split at hs
      · cases hs
      · next hmu =>
        cases hs
        refine .take id _ hi (Option.not_isSome_iff_eq_none.mp hmu) ?_
        cases s.lookup id with
        | some c => exact Or.inl ⟨c, rfl, rfl⟩
        | none => exact Or.inr ⟨rfl, rfl⟩
  | close =>
    simp only [enter] at hs
    split at hs
    · cases hs
    · next hmu =>
      split at hs
      · next hperm =>
        cases hs
        refine .takeAll _ hi (Option.not_isSome_iff_eq_none.mp hmu) hperm ?_
        cases o.order with
        | cons c rest => exact Or.inl ⟨c, rest, rfl, rfl⟩
        | nil => exact Or.inr rfl
      · cases hs

private theorem stop_section {op : Op} {rest : List Nat} {pc : StopPc}
    (hi : s.calls i = some ⟨op, .stopping c rest pc⟩) (hs : s.stop i op c rest pc = some s') :
    s.Section i o s' := by
  unfold stop at hs
  split at hs
  · cases hs
  · next ctl hc =>
    cases pc with
    | lock =>
      dsimp only at hs
      split at hs
      · next hstarted =>
        cases hs
        exact .stopLock op c rest ctl hi hc hstarted
      · next hstarted =>
        cases hs
        exact .stopReturn op c rest .lock ctl hi hc
          (Or.inl ⟨rfl, Bool.eq_false_iff.mpr hstarted⟩)
    | cancel =>
      cases hs
      exact .stopCancel op c rest ctl hi hc
    | wait =>
      dsimp only at hs
      split at hs
      · next hclosed =>
        cases hs
        exact .stopReturn op c rest .wait ctl hi hc (Or.inr hclosed)
      · cases hs

private theorem conclude_section {op : Op} {d : Option Nat}
    (hi : s.calls i = some ⟨op, .stopped d⟩) (hs : s.conclude i op d o = some s') :
    s.Section i o s' := by
  cases op with
  | registerService svc =>
    simp only [conclude] at hs
    split at hs
    · cases hs
      exact .registerFailed svc d _ hi
    · next ctl hnew =>
      split at hs
      · cases hs
        exact .registerFailed svc d _ hi
      · next ctl' hstart =>
        cases hs
        exact .install svc d ctl ctl' hi hnew hstart
  | deregisterService id =>
    simp only [conclude] at hs
    split at hs
    · next hshould =>
      split at hs
      · next ctl hctl =>
        split at hs
        · next hleader =>
          cases hs
          refine .agree id d hi hshould fun ctl' hctl' => ?_
          rw [hctl] at hctl'
          cases hctl'
          exact hleader
        · next hleader =>
          cases hs
          exact .keep id d hi fun _ => ⟨ctl, hctl, Bool.eq_false_iff.mpr hleader⟩
      · next hnone =>
        cases hs
        refine .agree id d hi hshould fun ctl hctl => ?_
        rw [hnone] at hctl
        cases hctl
    · next hshould =>
      cases hs
      exact .keep id d hi fun h => absurd h hshould
  | close =>
    cases hs
    exact .closed d hi

/-- A call makes no other moves. -/
theorem proceed_section (hs : s.proceed i o = some s') : s.Section i o s' := by
  simp only [proceed] at hs
  split at hs
  · cases hs
  · next op hi => exact enter_section hi hs
  · next op c rest pc hi => exact stop_section hi hs
  · next op d hi => exact conclude_section hi hs
  · next op d hi =>
    cases op with
    | deregisterService id =>
      cases hs
      exact .delete id d hi
    | registerService svc => cases hs
    | close => cases hs
  · cases hs

/-- A section moves its own call only. -/
theorem Section.calls (h : s.Section i o s') :
    ∃ call, s'.calls = update s.calls i (some call) := by
  cases h <;> exact ⟨_, rfl⟩

/-- A goroutine of a controller changes that controller, and writes when it reconciles. -/
theorem elect_cases {e : Controller.Event} {ans : Answers} (hs : s.elect c e ans = some s') :
    ∃ ctl ctl', s.controllers c = some ctl ∧ ctl.event e = some ctl' ∧
      (e = .reconcile ∧ s' = (s.issue (s.gateway.registerServiceDirect ans ctl.service).2
          ctl.service.id (some c) none).setController c ctl' ∨
        s' = s.setController c ctl') := by
  simp only [elect] at hs
  split at hs
  · cases hs
  · next ctl hc =>
    split at hs
    · cases hs
    · next ctl' he =>
      refine ⟨ctl, ctl', hc, he, ?_⟩
      split at hs
      · next heq =>
        cases hs
        exact Or.inl ⟨heq, rfl⟩
      · cases hs
        exact Or.inr rfl

/-- A call that does not execute a section stays where it is. -/
theorem step_calls_of_ne (hs : s.step l = some s') (hi : i < s.invoked)
    (hl : ∀ o, l ≠ .proceed i o) : s'.calls i = s.calls i := by
  cases l with
  | invoke op =>
    cases hs
    exact update_of_ne (Nat.ne_of_lt hi) _ _
  | proceed j o =>
    obtain ⟨call, hcalls⟩ := (proceed_section hs).calls
    rw [hcalls, update_of_ne]
    rintro rfl
    exact hl o rfl
  | elect c e ans =>
    obtain ⟨ctl, ctl', -, -, ⟨-, rfl⟩ | rfl⟩ := elect_cases hs <;> rfl

/-- What a step can do to a controller. -/
inductive Changes (s s' : ApisixGateway) (l : Label) (c : Nat) (ctl' : Controller) : Prop where
  /-- Nothing. -/
  | same (h : s.controllers c = some ctl')
  /-- An event of its goroutines or its election. -/
  | event (ctl : Controller) (e : Controller.Event) (ans : Answers) (hl : l = .elect c e ans)
      (h : s.controllers c = some ctl) (he : ctl.event e = some ctl')
  /-- The first section of `Stop`. -/
  | locked (ctl : Controller) (i : Nat) (o : Outcome) (op : Op) (rest : List Nat)
      (hl : l = .proceed i o) (h : s.controllers c = some ctl)
      (hi : s.calls i = some ⟨op, .stopping c rest .lock⟩)
      (heq : ctl' = { ctl with started := false })
  /-- The cancellation by `Stop`. -/
  | cancelled (ctl : Controller) (h : s.controllers c = some ctl)
      (heq : ctl' = { ctl with cancelled := true })
  /-- The return of `Stop`. -/
  | stopped (ctl : Controller) (i : Nat) (op : Op) (rest : List Nat) (pc : StopPc)
      (h : s.controllers c = some ctl) (hi : s.calls i = some ⟨op, .stopping c rest pc⟩)
      (hwhy : pc = .lock ∧ ctl.started = false ∨ ctl.election = .closed)
      (heq : ctl' = { ctl with stopped := true })
  /-- The start of a new one. -/
  | started (svc : GatewayService) (ctl : Controller) (access : ClusterAccess)
      (hfresh : c = s.created) (hnext : s'.created = s.created + 1)
      (hnew : newApisixLeaderController s.settings s.env svc = .ok ctl)
      (hstart : ctl.start access = .ok ctl')

private theorem setController_cases {ctl ctl' : Controller} {d : Nat}
    (h : update s.controllers d (some ctl) c = some ctl') :
    c = d ∧ ctl' = ctl ∨ s.controllers c = some ctl' := by
  rw [update_apply] at h
  split at h
  · next heq => exact Or.inl ⟨heq, (Option.some.inj h).symm⟩
  · exact Or.inr h

/-- Every step does one of these to each controller there is afterwards. -/
theorem step_changes (hs : s.step l = some s') {ctl' : Controller}
    (hc : s'.controllers c = some ctl') : s.Changes s' l c ctl' := by
  cases l with
  | invoke op =>
    cases hs
    exact .same hc
  | proceed i o =>
    cases proceed_section hs with
    | stopLock op d rest ctl hi hd hstarted =>
      rcases setController_cases hc with ⟨rfl, heq⟩ | hsame
      · exact .locked ctl i o op rest rfl hd hi heq
      · exact .same hsame
    | stopCancel op d rest ctl hi hd =>
      rcases setController_cases hc with ⟨rfl, heq⟩ | hsame
      · exact .cancelled ctl hd heq
      · exact .same hsame
    | stopReturn op d rest pc ctl hi hd hwhy =>
      rcases setController_cases hc with ⟨rfl, heq⟩ | hsame
      · exact .stopped ctl i op rest pc hd hi hwhy heq
      · exact .same hsame
    | install svc d ctl started hi hnew hstart =>
      rcases setController_cases hc with ⟨hfresh, rfl⟩ | hsame
      · exact .started svc ctl o.access hfresh rfl hnew hstart
      · exact .same hsame
    | _ => exact .same hc
  | elect d e ans =>
    obtain ⟨ctl, ctl'', hd, he, ⟨-, rfl⟩ | rfl⟩ := elect_cases hs
    · rcases setController_cases hc with ⟨rfl, rfl⟩ | hsame
      · exact .event ctl e ans rfl hd he
      · exact .same hsame
    · rcases setController_cases hc with ⟨rfl, rfl⟩ | hsame
      · exact .event ctl e ans rfl hd he
      · exact .same hsame

/-- A step sets at most one controller. -/
theorem step_controllers (hs : s.step l = some s') :
    s'.controllers = s.controllers ∨
      ∃ d ctl, s'.controllers = update s.controllers d (some ctl) := by
  cases l with
  | invoke op =>
    cases hs
    exact Or.inl rfl
  | proceed i o =>
    cases proceed_section hs with
    | stopLock | stopCancel | stopReturn | install => exact Or.inr ⟨_, _, rfl⟩
    | _ => exact Or.inl rfl
  | elect c e ans =>
    obtain ⟨ctl, ctl', -, -, ⟨-, rfl⟩ | rfl⟩ := elect_cases hs
    · exact Or.inr ⟨_, _, rfl⟩
    · exact Or.inr ⟨_, _, rfl⟩

/-- Controllers are only ever added. -/
theorem step_created_le (hs : s.step l = some s') : s.created ≤ s'.created := by
  cases l with
  | invoke op =>
    cases hs
    exact le_rfl
  | proceed i o =>
    cases proceed_section hs with
    | install => exact Nat.le_succ _
    | _ => exact le_rfl
  | elect c e ans =>
    obtain ⟨ctl, ctl', -, -, ⟨-, rfl⟩ | rfl⟩ := elect_cases hs <;> exact le_rfl

/-- Every controller there is has been created. -/
def Born (s : ApisixGateway) : Prop := ∀ c ctl, s.controllers c = some ctl → c < s.created

/-- Every step creates the controllers it sets. -/
theorem Born.step (h : s.Born) (hs : s.step l = some s') : s'.Born := by
  intro c ctl' hc
  have hle := step_created_le hs
  cases step_changes hs hc with
  | same hold => exact lt_of_lt_of_le (h c _ hold) hle
  | event ctl e ans hl hold he => exact lt_of_lt_of_le (h c _ hold) hle
  | locked ctl i o op rest hl hold hi heq => exact lt_of_lt_of_le (h c _ hold) hle
  | cancelled ctl hold heq => exact lt_of_lt_of_le (h c _ hold) hle
  | stopped ctl i op rest pc hold hi hwhy heq => exact lt_of_lt_of_le (h c _ hold) hle
  | started svc ctl access hfresh hnext hnew hstart => omega

/-- A controller stays, and only its own events touch its goroutines. -/
theorem step_follows (h : s.Born) (hs : s.step l = some s') {ctl : Controller}
    (hc : s.controllers c = some ctl) :
    ∃ ctl', s'.controllers c = some ctl' ∧
      ((∃ e ans, l = .elect c e ans ∧ ctl.event e = some ctl') ∨
        (∀ e ans, l ≠ .elect c e ans) ∧
          ∃ a b d, ctl' = { ctl with started := a, cancelled := b, stopped := d }) := by
  by_cases hl : ∃ e ans, l = .elect c e ans
  · obtain ⟨e, ans, rfl⟩ := hl
    obtain ⟨ctl₁, ctl', hc₁, he, hs'⟩ := elect_cases hs
    rw [hc] at hc₁
    cases hc₁
    refine ⟨ctl', ?_, Or.inl ⟨e, ans, rfl, he⟩⟩
    rcases hs' with ⟨-, rfl⟩ | rfl
    · exact update_self ..
    · exact update_self ..
  obtain ⟨ctl', hc'⟩ : ∃ ctl', s'.controllers c = some ctl' := by
    rcases step_controllers hs with hsame | ⟨d, ctl', hset⟩
    · exact ⟨ctl, hsame ▸ hc⟩
    · rw [hset, update_apply]
      split
      · exact ⟨ctl', rfl⟩
      · exact ⟨ctl, hc⟩
  refine ⟨ctl', hc', Or.inr ⟨fun e ans heq => hl ⟨e, ans, heq⟩, ?_⟩⟩
  have hold : ∀ ctl₁, s.controllers c = some ctl₁ → ctl₁ = ctl := by
    intro ctl₁ h₁
    rw [hc] at h₁
    exact (Option.some.inj h₁).symm
  cases step_changes hs hc' with
  | same h₁ =>
    rw [hold _ h₁]
    exact ⟨_, _, _, rfl⟩
  | event ctl₁ e ans heq h₁ he => exact absurd ⟨e, ans, heq⟩ hl
  | locked ctl₁ i o op rest heq h₁ hi hset =>
    rw [hset, hold _ h₁]
    exact ⟨_, _, _, rfl⟩
  | cancelled ctl₁ h₁ hset =>
    rw [hset, hold _ h₁]
    exact ⟨_, _, _, rfl⟩
  | stopped ctl₁ i op rest pc h₁ hi hwhy hset =>
    rw [hset, hold _ h₁]
    exact ⟨_, _, _, rfl⟩
  | started svc ctl₁ access hfresh hnext hnew hstart =>
    have hlt := h c ctl hc
    omega

/-- A step sends at most one batch of requests, by its own call or goroutine. -/
theorem step_issued (hs : s.step l = some s') :
    s'.issued = s.issued ∨ ∃ e, s'.issued = s.issued ++ [e] ∧
      ∀ i, e.call = some i → ∃ o, l = .proceed i o := by
  cases l with
  | invoke op =>
    cases hs
    exact Or.inl rfl
  | proceed i o =>
    cases proceed_section hs with
    | registerDirect | delete =>
      refine Or.inr ⟨_, rfl, fun j hj => ?_⟩
      cases hj
      exact ⟨o, rfl⟩
    | _ => exact Or.inl rfl
  | elect c e ans =>
    obtain ⟨ctl, ctl', -, -, ⟨-, rfl⟩ | rfl⟩ := elect_cases hs
    · exact Or.inr ⟨_, rfl, fun j hj => nomatch hj⟩
    · exact Or.inl rfl

/-- The settings never change. -/
theorem step_config (hs : s.step l = some s') : s'.gateway.config = s.gateway.config := by
  cases l with
  | invoke op =>
    cases hs
    rfl
  | proceed i o =>
    cases proceed_section hs with
    | registerDirect svc hi hmode => exact Gateway.registerServiceDirect_config ..
    | delete id d hi => exact (Gateway.deregisterServiceDirect_frame ..).2
    | _ => rfl
  | elect c e ans =>
    obtain ⟨ctl, ctl', -, -, ⟨-, rfl⟩ | rfl⟩ := elect_cases hs
    · exact Gateway.registerServiceDirect_config ..
    · rfl

end ApisixGateway

end Stardust.Register
