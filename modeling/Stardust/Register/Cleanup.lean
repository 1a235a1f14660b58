import Stardust.Register.Convergence

/-!
# Cleaning up after registrations

Deregistration knows only the recorded routes. A reconcile pass starts its record afresh and
misses the routes whose request fails although APISIX already holds them, and a deregistration
drops the record before it knows that the routes are gone.
-/

namespace Stardust.Register

open Gateway

/-- Every deletion is accepted. -/
def Answers.DeletesAll (ans : Answers) : Prop := ∀ resource id, ans.deleteOk resource id = true

/-- The passes of the reconcile loop over one service, before which APISIX holds none of its
routes and the gateway records none. -/
def reconcileSystem (svc : GatewayService) : Core.System Gateway Answers where
  init g := (∀ i, g.store .routes (routeID svc.id i) = none) ∧ g.routeIDs svc.id = []
  step g ans := some (g.registerServiceDirect ans svc).2

/-- Every route of the service in APISIX is recorded. -/
def Gateway.Tracked (g : Gateway) (svc : GatewayService) : Prop :=
  ∀ i, g.store .routes (routeID svc.id i) ≠ none → routeID svc.id i ∈ g.routeIDs svc.id

/-- Every route is recorded, so that a deregistration without failures leaves none. -/
def Gateway.Recoverable (g : Gateway) (svc : GatewayService) : Prop :=
  g.Tracked svc ∧ ∀ ans : Answers, ans.DeletesAll → ∀ i,
    (g.deregisterServiceDirect ans svc.id).2.store .routes (routeID svc.id i) = none

variable {svc : GatewayService}

/-- A recorded service can be cleaned up. -/
theorem Gateway.recoverable_iff_tracked {g : Gateway} : g.Recoverable svc ↔ g.Tracked svc := by
  refine ⟨And.left, fun htracked => ⟨htracked, ?_⟩⟩
  intro ans hall i
  rw [deregisterServiceDirect_of_ok fun id _ => hall .routes id]
  by_cases hmem : routeID svc.id i ∈ g.routeIDs svc.id
  · rw [if_pos hmem]
  · rw [if_neg hmem]
    by_contra hsome
    exact hmem (htracked i hsome)

/-- The pass loses no route: with its upstream accepted, only routes that APISIX does not hold
are refused. -/
def LosesNone (svc : GatewayService) (g : Gateway) (ans : Answers) : Prop :=
  ans.putOk .upstreams svc.id = true → ∀ i < svc.routes.length,
    ans.putOk .routes (routeID svc.id i) = false → g.store .routes (routeID svc.id i) = none

/-- Only indices of the list are ever stored. -/
def Gateway.WithinList (svc : GatewayService) (g : Gateway) : Prop :=
  ∀ i, svc.routes.length ≤ i → g.store .routes (routeID svc.id i) = none

/-- A pass stores no index beyond the list. -/
theorem Gateway.WithinList.pass {g : Gateway} (h : g.WithinList svc) (ans : Answers) :
    (g.registerServiceDirect ans svc).2.WithinList svc := by
  intro i hi
  by_contra hsome
  rcases (g.registerServiceDirect_stored_iff ⟨svc, ans⟩ i).mp hsome with hold | ⟨-, -, hlt, -⟩
  · exact hold (h i hi)
  · dsimp only at hlt
    omega

/-- A pass keeps every route recorded exactly when it loses none. -/
theorem Gateway.Tracked.pass_iff {g : Gateway} (hwithin : g.WithinList svc)
    (htracked : g.Tracked svc) (ans : Answers) :
    (g.registerServiceDirect ans svc).2.Tracked svc ↔ LosesNone svc g ans := by
  cases hup : ans.putOk .upstreams svc.id with
  | false =>
    obtain ⟨err, requests, herr⟩ := registerServiceDirect_of_upstream_refused (g := g) hup
    rw [herr]
    refine iff_of_true htracked fun haccepted => ?_
    rw [hup] at haccepted
    cases haccepted
  | true =>
    have hrecorded := (registerServiceDirect_of_upstream_ok (g := g) hup).2.1
    have hstored := g.registerServiceDirect_stored_iff ⟨svc, ans⟩
    constructor
    · intro hafter _ i _ hrefused
      by_contra hsome
      have hacc := (hrecorded i).mp (hafter i ((hstored i).mpr (Or.inl hsome)))
      rw [hacc.2.2] at hrefused
      cases hrefused
    · intro hloses i hsome
      rw [hrecorded i]
      rcases (hstored i).mp hsome with hold | hstores
      · have hlt : i < svc.routes.length := by
          by_contra hge
          exact hold (hwithin i (by omega))
        refine ⟨Nat.zero_le _, by omega, ?_⟩
        by_contra hrefused
        exact hold (hloses hup i hlt (Bool.eq_false_iff.mpr hrefused))
      · exact hstores.2

/-- In every run of the reconcile loop, every state can be cleaned up exactly when no pass
loses a route. -/
theorem reconcile_recoverable_iff_loses_none {g₀ g : Gateway} {passes : List Answers}
    (hinit : (reconcileSystem svc).init g₀) (hrun : (reconcileSystem svc).run g₀ passes = some g) :
    (∀ before after t, passes = before ++ after → (reconcileSystem svc).run g₀ before = some t →
        t.Recoverable svc) ↔ (reconcileSystem svc).Guarded (LosesNone svc) g₀ passes := by
  simp only [recoverable_iff_tracked]
  refine (reconcileSystem svc).forall_states_iff_guarded (I := Gateway.WithinList svc)
    (P := fun g => g.Tracked svc) ?_ ?_ (fun i _ => hinit.1 i) (fun i hi => absurd (hinit.1 i) hi)
    hrun
  · intro s ans s' hs hstep
    cases hstep
    exact hs.pass ans
  · intro s ans s' hs htracked hstep
    cases hstep
    exact htracked.pass_iff hs ans

/-- Answers that refuse every request after the upstream's. -/
def routesRefused : Answers :=
  ⟨fun resource _ => if resource = .upstreams then .status 200 "" else .status 503 "",
    fun _ _ => .status 200 ""⟩

/-- Answers that refuse every `PUT`. -/
def allRefused : Answers := ⟨fun _ _ => .failed "connection refused", fun _ _ => .status 200 ""⟩

/-- A pass that fails at the upstream after a complete one keeps every state recoverable. -/
theorem reconcile_recoverable_through_outage :
    ∃ g, (reconcileSystem (sampleService ["/a"])).run newGateway [allAccepted, allRefused] =
        some g ∧ ∀ before after t, [allAccepted, allRefused] = before ++ after →
          (reconcileSystem (sampleService ["/a"])).run newGateway before = some t →
            t.Recoverable (sampleService ["/a"]) := by
  refine ⟨_, rfl, (reconcile_recoverable_iff_loses_none ⟨fun _ => rfl, rfl⟩ rfl).mpr ?_⟩
  refine ⟨?_, fun t _ => ⟨?_, fun _ _ => trivial⟩⟩
  · intro _ i _ hrefused
    cases hrefused
  · intro haccepted
    cases haccepted

/-- A pass whose route is refused after a complete one leaves that route unrecorded. -/
theorem reconcile_loses_refused_route :
    ∃ g, (reconcileSystem (sampleService ["/a"])).init newGateway ∧
      (reconcileSystem (sampleService ["/a"])).run newGateway [allAccepted, routesRefused] =
        some g ∧ ¬ g.Recoverable (sampleService ["/a"]) := by
  have hwithin : newGateway.WithinList (sampleService ["/a"]) := fun _ _ => rfl
  have htracked : newGateway.Tracked (sampleService ["/a"]) := fun _ h => absurd rfl h
  have hfirst := (htracked.pass_iff hwithin allAccepted).mpr fun _ i _ hrefused => by cases hrefused
  refine ⟨_, ⟨fun _ => rfl, rfl⟩, rfl, ?_⟩
  rw [recoverable_iff_tracked]
  intro hlast
  have hloses := (hfirst.pass_iff (hwithin.pass allAccepted) routesRefused).mp hlast
  have hstored := (newGateway.registerServiceDirect_stored_iff
    ⟨sampleService ["/a"], allAccepted⟩ 0).mpr (Or.inr ⟨rfl, by decide, by decide, rfl⟩)
  exact hstored (hloses rfl 0 (by decide) rfl)

section Retry

variable {byLeader : String → Gateway → Option String × Gateway}

/-- After the retry from `g₁`, every route that was recorded in `g` is gone, and the upstream
was deleted last. -/
def Gateway.RetryCompletes (g g₁ g₂ : Gateway) (serviceID : String) : Prop :=
  (∀ id ∈ g.routeIDs serviceID, g₂.store .routes id = none) ∧
    g₂.store .upstreams serviceID = none ∧
    ∃ ids : List String, g₂.requests =
      g₁.requests ++ ids.map (Request.delete .routes) ++ [.delete .upstreams serviceID]

/-- A deregistration that fails in single mode was carried out by the gateway itself. -/
theorem Gateway.deregisterService_error {g g₁ : Gateway} {ans : Answers} {serviceID err : String}
    (hmode : g.config.mode = .single)
    (herr : g.deregisterService ans byLeader serviceID = (some err, g₁)) :
    g.config.shouldDeregisterOnShutdown = true ∧
      g.deregisterServiceDirect ans serviceID = (some err, g₁) := by
  unfold deregisterService at herr
  rw [hmode] at herr
  dsimp only at herr
  split at herr
  · exact ⟨by assumption, herr⟩
  · cases herr

/-- After a failed deregistration, a retry without failures completes it exactly when no route
was refused the first time. -/
theorem deregister_retry_completes_iff {g g₁ : Gateway} {ans retry : Answers}
    {serviceID err : String} (hmode : g.config.mode = .single)
    (hregistered : ∀ id ∈ g.routeIDs serviceID, g.store .routes id ≠ none)
    (herr : g.deregisterService ans byLeader serviceID = (some err, g₁))
    (hall : retry.DeletesAll) :
    g.RetryCompletes g₁ (g₁.deregisterService retry byLeader serviceID).2 serviceID ↔
      ∀ id ∈ g.routeIDs serviceID, ans.deleteOk .routes id = true := by
  obtain ⟨hshould, hdirect⟩ := deregisterService_error hmode herr
  obtain ⟨hempty, hconfig⟩ := deregisterServiceDirect_frame ans g serviceID
  rw [hdirect] at hempty hconfig
  have hretry : g₁.deregisterService retry byLeader serviceID =
      g₁.deregisterServiceDirect retry serviceID := by
    unfold deregisterService
    rw [hconfig, hmode]
    exact if_pos hshould
  have hroutes : ∀ id, (g₁.deregisterServiceDirect retry serviceID).2.store .routes id =
      g₁.store .routes id := by
    intro id
    rw [deregisterServiceDirect_of_ok fun id _ => hall .routes id, hempty]
    exact if_neg List.not_mem_nil
  obtain ⟨hrequests, hupstream⟩ :=
    deregisterServiceDirect_of_empty hempty (hall .upstreams serviceID)
  rw [hretry]
  constructor
  · rintro ⟨hgone, -, -⟩ id hid
    by_contra hrefused
    have hkept := deregisterServiceDirect_of_refused hid (Bool.eq_false_iff.mpr hrefused)
    rw [hdirect] at hkept
    apply hregistered id hid
    rw [← hkept, ← hroutes]
    exact hgone id hid
  · intro haccepted
    refine ⟨fun id hid => ?_, hupstream, [], by simpa using hrequests⟩
    have hgone := deregisterServiceDirect_of_ok haccepted id
    rw [hdirect, if_pos hid] at hgone
    rw [hroutes]
    exact hgone

end Retry

/-- A gateway that has registered a service with two routes. -/
def registeredGateway : Gateway :=
  (newGateway.registerServiceDirect allAccepted (sampleService ["/a", "/b"])).2

/-- Answers that refuse to delete one resource. -/
def deletesAllBut (resource : Resource) (id : String) : Answers :=
  ⟨fun _ _ => .status 200 "",
    fun r i => if r = resource ∧ i = id then .status 500 "" else .status 200 ""⟩

/-- An attempt that fails only at the upstream is completed by the retry. -/
theorem deregister_retry_after_upstream_refused :
    ∃ err g₁, registeredGateway.deregisterService (deletesAllBut .upstreams "svc")
        (fun _ g => (none, g)) "svc" = (some err, g₁) ∧
      registeredGateway.RetryCompletes g₁
        (g₁.deregisterService allAccepted (fun _ g => (none, g)) "svc").2 "svc" := by
  obtain ⟨err, g₁, herr⟩ : ∃ err g₁, registeredGateway.deregisterService
      (deletesAllBut .upstreams "svc") (fun _ g => (none, g)) "svc" = (some err, g₁) :=
    ⟨_, _, rfl⟩
  refine ⟨err, g₁, herr, ?_⟩
  rw [deregister_retry_completes_iff (by decide) (by decide) herr fun _ _ => rfl]
  decide

/-- An attempt that fails at the first route makes the retry delete the upstream alone: it
returns nil with both routes still in APISIX. -/
theorem deregister_retry_forgets_routes :
    ∃ err g₁ g₂, registeredGateway.deregisterService (deletesAllBut .routes "svc-route-0")
        (fun _ g => (none, g)) "svc" = (some err, g₁) ∧
      g₁.deregisterService allAccepted (fun _ g => (none, g)) "svc" = (none, g₂) ∧
      g₂.store .routes "svc-route-0" ≠ none ∧ g₂.store .routes "svc-route-1" ≠ none ∧
      ¬ registeredGateway.RetryCompletes g₁ g₂ "svc" := by
  refine ⟨_, _, _, rfl, rfl, by decide, by decide, ?_⟩
  rintro ⟨hgone, -, -⟩
  revert hgone
  decide

end Stardust.Register
