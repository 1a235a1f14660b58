import Stardust.Core.System
import Stardust.Register.Requests

/-!
# Convergence of registrations

A registration writes the routes it describes and removes none. What APISIX holds for a
service is therefore everything that any registration so far has stored, index by index.
-/

namespace Stardust.Register

open Gateway

/-- One call of `RegisterService` and the answers to its requests. -/
structure Registration where
  /-- The service as described in this call. -/
  svc : GatewayService
  ans : Answers

/-- The call stores a route at the index. -/
def Registration.Stores (call : Registration) (i : Nat) : Prop :=
  call.ans.putOk .upstreams call.svc.id = true ∧
    Gateway.Accepted call.ans call.svc.id 0 call.svc.routes i

/-- Histories of registrations, from a new gateway in single mode and an empty APISIX. -/
def registrationSystem (byLeader : GatewayService → Gateway → Option String × Gateway) :
    Core.System Gateway Registration where
  init g := g.config.mode = .single ∧ ∀ resource id, g.store resource id = none
  step g call := some (g.registerService call.ans byLeader call.svc).2

/-- The routes under the identifiers of the service are exactly those it describes. -/
def Gateway.Converged (g : Gateway) (svc : GatewayService) : Prop :=
  ∀ i, g.store .routes (routeID svc.id i) =
    (svc.routes[i]?).map fun route => .route (routeBody svc.id route)

variable {calls : List Registration}

section Histories

variable {byLeader : GatewayService → Gateway → Option String × Gateway}

/-- In single mode the gateway writes by itself. -/
theorem Gateway.registerService_single {g : Gateway} (hmode : g.config.mode = .single)
    (ans : Answers) (svc : GatewayService) :
    g.registerService ans byLeader svc = g.registerServiceDirect ans svc := by
  unfold registerService
  rw [hmode]

/-- A registration adds to the stored indices what it stores itself. -/
theorem Gateway.registerServiceDirect_stored_iff (g : Gateway) (call : Registration) (i : Nat) :
    (g.registerServiceDirect call.ans call.svc).2.store .routes (routeID call.svc.id i) ≠ none ↔
      g.store .routes (routeID call.svc.id i) ≠ none ∨ call.Stores i := by
  unfold Registration.Stores
  cases hup : call.ans.putOk .upstreams call.svc.id with
  | false =>
    obtain ⟨err, requests, herr⟩ := registerServiceDirect_of_upstream_refused (g := g) hup
    rw [herr]
    simp
  | true =>
    rw [(registerServiceDirect_of_upstream_ok hup).1 i]
    by_cases hacc : Accepted call.ans call.svc.id 0 call.svc.routes i
    · have hlt : i < call.svc.routes.length := by
        have := hacc.2.1
        omega
      simp [hacc, List.getElem?_eq_getElem hlt]
    · simp [hacc]

/-- Along a history of one service the stored indices are those that some call stored. -/
theorem registrations_stored_iff {g g' : Gateway} {id : String} (hmode : g.config.mode = .single)
    (hid : ∀ call ∈ calls, call.svc.id = id)
    (hrun : (registrationSystem byLeader).run g calls = some g') (i : Nat) :
    g'.store .routes (routeID id i) ≠ none ↔
      g.store .routes (routeID id i) ≠ none ∨ ∃ call ∈ calls, call.Stores i := by
  induction calls generalizing g with
  | nil =>
    cases hrun
    simp
  | cons call calls ih =>
    obtain ⟨mid, hstep, hrest⟩ := Core.System.run_cons_iff _ |>.mp hrun
    have hfirst := hid call (List.mem_cons_self ..)
    cases hstep
    rw [registerService_single hmode] at hrest
    rw [ih (by rw [registerServiceDirect_config]; exact hmode)
        (fun c hc => hid c (List.mem_cons_of_mem _ hc)) hrest,
      ← hfirst, registerServiceDirect_stored_iff, or_assoc]
    simp

/-- The mode never changes along a history. -/
theorem registrations_mode {g g' : Gateway} (hmode : g.config.mode = .single)
    (hrun : (registrationSystem byLeader).run g calls = some g') : g'.config.mode = .single := by
  refine (registrationSystem byLeader).run_invariant (P := fun g => g.config.mode = .single) ?_
    hmode hrun
  intro s call s' hs hstep
  cases hstep
  rw [registerService_single hs, registerServiceDirect_config]
  exact hs

/-- A successful registration describes the routes of the service exactly when none was stored
beyond its list before. -/
theorem Gateway.converged_iff_no_stale {g : Gateway} {ans : Answers} {svc : GatewayService}
    (hnil : (g.registerServiceDirect ans svc).1 = none) :
    (g.registerServiceDirect ans svc).2.Converged svc ↔
      ∀ i, svc.routes.length ≤ i → g.store .routes (routeID svc.id i) = none := by
  obtain ⟨hup, hroutes⟩ := registerServiceDirect_nil_iff.mp hnil
  have hstored := (registerServiceDirect_of_upstream_ok (g := g) hup).1
  unfold Gateway.Converged
  constructor
  · intro h i hi
    have hacc : ¬ Gateway.Accepted ans svc.id 0 svc.routes i := by
      rintro ⟨-, hlt, -⟩
      omega
    have hi' := h i
    rw [hstored i, if_neg hacc, List.getElem?_eq_none hi] at hi'
    exact hi'
  · intro h i
    rw [hstored i]
    by_cases hi : i < svc.routes.length
    · rw [if_pos ⟨Nat.zero_le _, by omega, hroutes i hi⟩]
    · rw [if_neg (by rintro ⟨-, hlt, -⟩; omega), h i (by omega),
        List.getElem?_eq_none (by omega)]
      rfl

/-- After any history of one service, a registration that returns nil has converged exactly when
no earlier one stored a route beyond its list. -/
theorem register_converges_iff_no_longer_list {g₀ g g' : Gateway} {svc : GatewayService}
    {ans : Answers} (hinit : (registrationSystem byLeader).init g₀)
    (hid : ∀ call ∈ calls, call.svc.id = svc.id)
    (hrun : (registrationSystem byLeader).run g₀ calls = some g)
    (hnil : g.registerService ans byLeader svc = (none, g')) :
    g'.Converged svc ↔ ∀ call ∈ calls, ∀ i, svc.routes.length ≤ i → ¬ call.Stores i := by
  have hstored := registrations_stored_iff hinit.1 hid hrun
  simp only [hinit.2, ne_eq, not_true_eq_false, false_or] at hstored
  rw [registerService_single (registrations_mode hinit.1 hrun)] at hnil
  have hconverged := converged_iff_no_stale (congrArg Prod.fst hnil)
  rw [hnil] at hconverged
  rw [hconverged]
  constructor
  · intro h call hcall i hi hstores
    exact (hstored i).mpr ⟨call, hcall, hstores⟩ (h i hi)
  · intro h i hi
    by_contra hsome
    obtain ⟨call, hcall, hstores⟩ := (hstored i).mp hsome
    exact h call hcall i hi hstores

end Histories

/-- Answers that accept every request. -/
def allAccepted : Answers := ⟨fun _ _ => .status 200 "", fun _ _ => .status 200 ""⟩

/-- A new gateway in single mode with nothing stored. -/
def newGateway : Gateway := ⟨⟨"single", none⟩, fun _ => [], fun _ _ => none, []⟩

/-- A service with routes of the given paths. -/
def sampleService (uris : List String) : GatewayService :=
  ⟨"svc", "svc", ⟨"roundrobin", [("127.0.0.1:8080", 1)], ""⟩,
    uris.map fun uri => ⟨uri, uri, [], none⟩⟩

/-- What a registration after another one returns when everything is accepted. -/
private theorem register_again_nil {byLeader : GatewayService → Gateway → Option String × Gateway}
    {g : Gateway} (hrun : (registrationSystem byLeader).run newGateway calls = some g)
    (svc : GatewayService) :
    g.registerService allAccepted byLeader svc =
      (none, (g.registerServiceDirect allAccepted svc).2) := by
  rw [registerService_single (registrations_mode (by decide) hrun)]
  exact Prod.ext (registerServiceDirect_nil_iff.mpr ⟨rfl, fun _ _ => rfl⟩) rfl

/-- A list that grows from one route to two has converged. -/
theorem register_converges_growing_list :
    ∃ g g', (registrationSystem fun _ g => (none, g)).run newGateway
        [⟨sampleService ["/a"], allAccepted⟩] = some g ∧
      g.registerService allAccepted (fun _ g => (none, g)) (sampleService ["/a", "/b"]) =
        (none, g') ∧ g'.Converged (sampleService ["/a", "/b"]) := by
  obtain ⟨g, hrun⟩ : ∃ g, (registrationSystem fun _ g => (none, g)).run newGateway
      [⟨sampleService ["/a"], allAccepted⟩] = some g := ⟨_, rfl⟩
  refine ⟨g, _, hrun, register_again_nil hrun _, ?_⟩
  rw [register_converges_iff_no_longer_list ⟨by decide, fun _ _ => rfl⟩ (by simp [sampleService])
    hrun (register_again_nil hrun _)]
  intro call hcall i hi hstores
  rw [List.mem_singleton.mp hcall] at hstores
  have hlt : i < 0 + 1 := hstores.2.2.1
  have hle : 2 ≤ i := hi
  omega

/-- A list that shrinks from two routes to one leaves the second route behind. -/
theorem register_leaves_stale_route :
    ∃ g g', (registrationSystem fun _ g => (none, g)).run newGateway
        [⟨sampleService ["/a", "/b"], allAccepted⟩] = some g ∧
      g.registerService allAccepted (fun _ g => (none, g)) (sampleService ["/a"]) = (none, g') ∧
      g'.store .routes (routeID "svc" 1) ≠ none ∧ ¬ g'.Converged (sampleService ["/a"]) := by
  obtain ⟨g, hrun⟩ : ∃ g, (registrationSystem fun _ g => (none, g)).run newGateway
      [⟨sampleService ["/a", "/b"], allAccepted⟩] = some g := ⟨_, rfl⟩
  have hbefore : g.store .routes (routeID "svc" 1) ≠ none :=
    (registrations_stored_iff (by decide) (by simp [sampleService]) hrun 1).mpr
      (Or.inr ⟨_, List.mem_singleton_self _, rfl, by decide, by decide, rfl⟩)
  have hafter := (g.registerServiceDirect_stored_iff ⟨sampleService ["/a"], allAccepted⟩ 1).mpr
    (Or.inl hbefore)
  refine ⟨g, _, hrun, register_again_nil hrun _, hafter, ?_⟩
  intro hconverged
  exact hafter (hconverged 1)

end Stardust.Register
