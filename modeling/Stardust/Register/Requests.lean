import Stardust.Core.Text
import Stardust.Register.Apisix

/-!
# What the requests of one call leave behind

A registration decides about the route at each index by its own answer alone, because
route identifiers of one service differ by index. A deregistration deletes exactly the
recorded routes up to the first refusal.
-/

namespace Stardust.Register

/-- An identifier is taken apart at its last dash, which stands before the index. -/
theorem eq_of_routeID_eq {a b : String} {i j : Nat} (h : routeID a i = routeID b j) :
    a = b ∧ i = j := by
  have hsplit : ∀ a i, (routeID a i).toList =
      (a ++ "-route").toList ++ '-' :: (toString i).toList := by
    intro a i
    simp [routeID]
  have hlist := congrArg String.toList h
  rw [hsplit, hsplit] at hlist
  obtain ⟨hname, hindex⟩ := Core.eq_of_append_cons_eq (Core.minus_not_mem_toString i)
    (Core.minus_not_mem_toString j) hlist
  rw [String.toList_append, String.toList_append, List.append_left_inj] at hname
  exact ⟨String.toList_inj.mp hname, Core.eq_of_toString_eq hindex⟩

variable {serviceID : String}

/-- Routes of one service are told apart by their index. -/
theorem routeID_inj {i j : Nat} : routeID serviceID i = routeID serviceID j ↔ i = j :=
  ⟨fun h => (eq_of_routeID_eq h).2, congrArg _⟩

variable {routes : List GatewayRoute} {resource : Resource} {id : String}

namespace Gateway

variable {g : Gateway} {ans : Answers}

section Send

variable {method : String} {accepted : Nat} {request : Request} {body : Option Body}
  {answer : Answer}

/-- An accepted request returns no error and is applied. -/
theorem send_of_ok (h : answer.ok accepted = true) :
    g.send method accepted resource id request body answer =
      (none, write { g with requests := g.requests ++ [request] } resource id body) := by
  cases answer with
  | failed err => cases h
  | status code respBody =>
    simp only [Answer.ok, Bool.or_eq_true, decide_eq_true_eq] at h
    exact if_neg (by omega)

/-- A refused request returns an error and is only logged. -/
theorem send_of_not_ok (h : answer.ok accepted = false) :
    ∃ err, g.send method accepted resource id request body answer =
      (some err, { g with requests := g.requests ++ [request] }) := by
  cases answer with
  | failed err => exact ⟨_, rfl⟩
  | status code respBody =>
    simp only [Answer.ok, Bool.or_eq_false_iff, decide_eq_false_iff_not] at h
    exact ⟨_, if_pos h⟩

/-- A request is sent whatever the answer. -/
theorem send_requests :
    (g.send method accepted resource id request body answer).2.requests =
      g.requests ++ [request] := by
  cases hok : answer.ok accepted with
  | true =>
    rw [send_of_ok hok]
    rfl
  | false =>
    obtain ⟨err, herr⟩ := send_of_not_ok (g := g) hok
    rw [herr]

end Send

/-- An accepted `PUT` returns no error and is stored. -/
theorem putResource_of_ok (h : ans.putOk resource id = true) (body : Body) :
    g.putResource ans resource id body =
      (none, write { g with requests := g.requests ++ [.put resource id body] } resource id
        (some body)) :=
  send_of_ok h

/-- A refused `PUT` returns an error and is only logged. -/
theorem putResource_of_not_ok (h : ans.putOk resource id = false) (body : Body) :
    ∃ err, g.putResource ans resource id body =
      (some err, { g with requests := g.requests ++ [.put resource id body] }) :=
  send_of_not_ok h

/-- An accepted `DELETE` returns no error and removes the resource. -/
theorem deleteResource_of_ok (h : ans.deleteOk resource id = true) :
    g.deleteResource ans resource id =
      (none, write { g with requests := g.requests ++ [.delete resource id] } resource id none) :=
  send_of_ok h

/-- A refused `DELETE` returns an error and is only logged. -/
theorem deleteResource_of_not_ok (h : ans.deleteOk resource id = false) :
    ∃ err, g.deleteResource ans resource id =
      (some err, { g with requests := g.requests ++ [.delete resource id] }) :=
  send_of_not_ok h

/-- The route at index `j` is in the list that starts at index `i`, and its `PUT` is accepted. -/
def Accepted (ans : Answers) (serviceID : String) (i : Nat) (routes : List GatewayRoute)
    (j : Nat) : Prop :=
  i ≤ j ∧ j < i + routes.length ∧ ans.putOk .routes (routeID serviceID j) = true

instance (serviceID : String) (i : Nat) (routes : List GatewayRoute) (j : Nat) :
    Decidable (Accepted ans serviceID i routes j) := by
  unfold Accepted
  infer_instance

/-- What the route loop from index `i` on has done. -/
structure RoutesWritten (ans : Answers) (serviceID : String) (g : Gateway) (i : Nat)
    (routes : List GatewayRoute) (g' : Gateway) : Prop where
  /-- Exactly the accepted routes were written. -/
  stored : ∀ j, g'.store .routes (routeID serviceID j) =
    if Accepted ans serviceID i routes j then
      (routes[j - i]?).map fun route => .route (routeBody serviceID route)
    else g.store .routes (routeID serviceID j)
  /-- Exactly the accepted routes were recorded. -/
  recorded : ∀ j, routeID serviceID j ∈ g'.routeIDs serviceID ↔
    routeID serviceID j ∈ g.routeIDs serviceID ∨ Accepted ans serviceID i routes j
  config : g'.config = g.config

/-- The first route of a list is the one at its starting index. -/
theorem accepted_cons_iff {i j : Nat} {route : GatewayRoute} :
    Accepted ans serviceID i (route :: routes) j ↔
      (j = i ∧ ans.putOk .routes (routeID serviceID j) = true) ∨
        Accepted ans serviceID (i + 1) routes j := by
  unfold Accepted
  rw [List.length_cons]
  constructor
  · rintro ⟨hle, hlt, hok⟩
    rcases Nat.eq_or_lt_of_le hle with rfl | hgt
    · exact Or.inl ⟨rfl, hok⟩
    · exact Or.inr ⟨hgt, by omega, hok⟩
  · rintro (⟨rfl, hok⟩ | ⟨hle, hlt, hok⟩)
    · exact ⟨Nat.le_refl _, by omega, hok⟩
    · exact ⟨by omega, by omega, hok⟩

/-- An accepted route further on is found one place earlier in the rest of the list. -/
private theorem getElem?_of_accepted {i j : Nat} (route : GatewayRoute)
    (h : Accepted ans serviceID (i + 1) routes j) :
    (route :: routes)[j - i]? = routes[j - (i + 1)]? := by
  have hle := h.1
  rw [show j - i = j - (i + 1) + 1 by omega, List.getElem?_cons_succ]

/-- An accepted route is written and recorded before the rest of the loop. -/
theorem RoutesWritten.cons_of_ok {i : Nat} {route : GatewayRoute}
    {requests : List Request} {g' : Gateway}
    (hok : ans.putOk .routes (routeID serviceID i) = true)
    (h : RoutesWritten ans serviceID (setRouteIDs (write { g with requests := requests } .routes
        (routeID serviceID i) (some (.route (routeBody serviceID route)))) serviceID
        (g.routeIDs serviceID ++ [routeID serviceID i])) (i + 1) routes g') :
    RoutesWritten ans serviceID g i (route :: routes) g' := by
  constructor
  · intro j
    rw [h.stored j]
    by_cases hacc : Accepted ans serviceID (i + 1) routes j
    · rw [if_pos hacc, if_pos (accepted_cons_iff.mpr (Or.inr hacc)),
        getElem?_of_accepted route hacc]
    · rw [if_neg hacc]
      by_cases hj : j = i
      · subst hj
        rw [if_pos (accepted_cons_iff.mpr (Or.inl ⟨rfl, hok⟩)), Nat.sub_self]
        simp [setRouteIDs, write]
      · rw [if_neg (by rw [accepted_cons_iff]; tauto)]
        simp [setRouteIDs, write, routeID_inj, hj]
  · intro j
    rw [h.recorded j, accepted_cons_iff]
    simp only [setRouteIDs, Function.update_self, List.mem_append, List.mem_singleton, routeID_inj]
    constructor
    · rintro ((hold | rfl) | hacc)
      · exact Or.inl hold
      · exact Or.inr (Or.inl ⟨rfl, hok⟩)
      · exact Or.inr (Or.inr hacc)
    · rintro (hold | ⟨rfl, -⟩ | hacc)
      · exact Or.inl (Or.inl hold)
      · exact Or.inl (Or.inr rfl)
      · exact Or.inr hacc
  · exact h.config

/-- A refused route leaves everything to the rest of the loop. -/
theorem RoutesWritten.cons_of_not_ok {i : Nat} {route : GatewayRoute} {requests : List Request}
    {g' : Gateway} (hrefused : ans.putOk .routes (routeID serviceID i) = false)
    (h : RoutesWritten ans serviceID { g with requests := requests } (i + 1) routes g') :
    RoutesWritten ans serviceID g i (route :: routes) g' := by
  have hcons : ∀ j, Accepted ans serviceID i (route :: routes) j ↔
      Accepted ans serviceID (i + 1) routes j := by
    intro j
    rw [accepted_cons_iff, or_iff_right]
    rintro ⟨rfl, hok⟩
    rw [hrefused] at hok
    cases hok
  constructor
  · intro j
    rw [h.stored j]
    by_cases hacc : Accepted ans serviceID (i + 1) routes j
    · rw [if_pos hacc, if_pos ((hcons j).mpr hacc), getElem?_of_accepted route hacc]
    · rw [if_neg hacc, if_neg (mt (hcons j).mp hacc)]
  · intro j
    rw [h.recorded j, hcons j]
  · exact h.config

/-- The loop writes and records exactly the accepted routes. -/
theorem putRoutes_written (ans : Answers) (serviceID : String) (g : Gateway) (i : Nat)
    (routes : List GatewayRoute) (routeErrs : List String) :
    RoutesWritten ans serviceID g i routes (putRoutes ans serviceID g i routes routeErrs).2 := by
  induction routes generalizing g i routeErrs with
  | nil =>
    have hnone : ∀ j, ¬ Accepted ans serviceID i [] j := by
      rintro j ⟨hle, hlt, -⟩
      rw [List.length_nil] at hlt
      omega
    constructor
    · intro j
      rw [if_neg (hnone j)]
      rfl
    · intro j
      rw [or_iff_left (hnone j)]
      rfl
    · rfl
  | cons route routes ih =>
    unfold putRoutes
    cases hok : ans.putOk .routes (routeID serviceID i) with
    | true =>
      rw [putResource_of_ok hok]
      exact RoutesWritten.cons_of_ok hok (ih _ _ _)
    | false =>
      obtain ⟨err, herr⟩ := putResource_of_not_ok (g := g) hok (.route (routeBody serviceID route))
      rw [herr]
      exact RoutesWritten.cons_of_not_ok hok (ih _ _ _)

/-- The loop collects no error exactly when every route is accepted. -/
theorem putRoutes_errors_nil_iff (ans : Answers) (serviceID : String) (g : Gateway) (i : Nat)
    (routes : List GatewayRoute) (routeErrs : List String) :
    (putRoutes ans serviceID g i routes routeErrs).1 = [] ↔
      routeErrs = [] ∧
        ∀ k < routes.length, ans.putOk .routes (routeID serviceID (i + k)) = true := by
  induction routes generalizing g i routeErrs with
  | nil => simp [putRoutes]
  | cons route routes ih =>
    have hsplit : (∀ k < (route :: routes).length,
        ans.putOk .routes (routeID serviceID (i + k)) = true) ↔
          ans.putOk .routes (routeID serviceID i) = true ∧
            ∀ k < routes.length, ans.putOk .routes (routeID serviceID (i + 1 + k)) = true := by
      constructor
      · intro h
        refine ⟨h 0 (Nat.succ_pos _), fun k hk => ?_⟩
        rw [Nat.add_right_comm]
        exact h (k + 1) (Nat.succ_lt_succ hk)
      · rintro ⟨hfirst, hrest⟩ k hk
        cases k with
        | zero => exact hfirst
        | succ k =>
          have hk' := hrest k (Nat.lt_of_succ_lt_succ hk)
          rwa [Nat.add_right_comm] at hk'
    rw [hsplit]
    unfold putRoutes
    cases hok : ans.putOk .routes (routeID serviceID i) with
    | true =>
      rw [putResource_of_ok hok]
      simp only [ih, true_and]
    | false =>
      obtain ⟨err, herr⟩ := putResource_of_not_ok (g := g) hok (.route (routeBody serviceID route))
      rw [herr]
      simp [ih]

/-- A refused upstream ends the registration with nothing but its request sent. -/
theorem registerServiceDirect_of_upstream_refused {svc : GatewayService}
    (h : ans.putOk .upstreams svc.id = false) :
    ∃ err requests,
      g.registerServiceDirect ans svc = (some err, { g with requests := requests }) := by
  obtain ⟨err, herr⟩ := putResource_of_not_ok (g := g) h
    (.upstream (toUpstreamBody svc.upstream svc.name))
  unfold registerServiceDirect
  rw [herr]
  exact ⟨_, _, rfl⟩

/-- After an accepted upstream, the route loop decides about every route of the service, from
an empty record. -/
theorem registerServiceDirect_of_upstream_ok {svc : GatewayService}
    (h : ans.putOk .upstreams svc.id = true) :
    (∀ j, (g.registerServiceDirect ans svc).2.store .routes (routeID svc.id j) =
      if Accepted ans svc.id 0 svc.routes j then
        (svc.routes[j]?).map fun route => .route (routeBody svc.id route)
      else g.store .routes (routeID svc.id j)) ∧
    (∀ j, routeID svc.id j ∈ (g.registerServiceDirect ans svc).2.routeIDs svc.id ↔
      Accepted ans svc.id 0 svc.routes j) ∧
    ((g.registerServiceDirect ans svc).1 = none ↔
      ∀ k < svc.routes.length, ans.putOk .routes (routeID svc.id k) = true) := by
  unfold registerServiceDirect
  rw [putResource_of_ok h]
  dsimp only
  generalize hstart : setRouteIDs (write _ _ _ _) svc.id [] = start
  have hstore : ∀ j, start.store .routes (routeID svc.id j) =
      g.store .routes (routeID svc.id j) := by
    intro j
    rw [← hstart]
    simp [setRouteIDs, write]
  have hrecord : start.routeIDs svc.id = [] := by
    rw [← hstart]
    exact Function.update_self ..
  obtain ⟨hstored, hrecorded, -⟩ := putRoutes_written ans svc.id start 0 svc.routes []
  have herrors := putRoutes_errors_nil_iff ans svc.id start 0 svc.routes []
  simp only [hstore, Nat.sub_zero] at hstored
  simp only [hrecord, List.not_mem_nil, false_or] at hrecorded
  simp only [true_and, Nat.zero_add] at herrors
  generalize putRoutes ans svc.id start 0 svc.routes [] = result at hstored hrecorded herrors ⊢
  obtain ⟨errs, g'⟩ := result
  refine ⟨?_, ?_, ?_⟩
  · cases errs <;> exact hstored
  · cases errs <;> exact hrecorded
  · rw [← herrors]
    cases errs <;> simp

/-- Registering changes no settings. -/
theorem registerServiceDirect_config (svc : GatewayService) :
    (g.registerServiceDirect ans svc).2.config = g.config := by
  cases hup : ans.putOk .upstreams svc.id with
  | false =>
    obtain ⟨err, requests, herr⟩ := registerServiceDirect_of_upstream_refused (g := g) hup
    rw [herr]
  | true =>
    unfold registerServiceDirect
    rw [putResource_of_ok hup]
    dsimp only
    split <;> rename_i hroutes
    · exact (congrArg (·.2.config) hroutes).symm.trans (putRoutes_written ..).config
    · exact (congrArg (·.2.config) hroutes).symm.trans (putRoutes_written ..).config

/-- A registration succeeds exactly when all its requests are accepted. -/
theorem registerServiceDirect_nil_iff {svc : GatewayService} :
    (g.registerServiceDirect ans svc).1 = none ↔ ans.putOk .upstreams svc.id = true ∧
      ∀ k < svc.routes.length, ans.putOk .routes (routeID svc.id k) = true := by
  cases hup : ans.putOk .upstreams svc.id with
  | false =>
    obtain ⟨err, requests, herr⟩ := registerServiceDirect_of_upstream_refused (g := g) hup
    rw [herr]
    simp
  | true => simp [(registerServiceDirect_of_upstream_ok (g := g) hup).2.2]

/-- Accepted deletions remove exactly the listed routes. -/
theorem deleteRoutes_of_ok (g : Gateway) {ids : List String}
    (h : ∀ id ∈ ids, ans.deleteOk .routes id = true) (id : String) :
    (deleteRoutes ans g ids).2.store .routes id =
      if id ∈ ids then none else g.store .routes id := by
  induction ids generalizing g with
  | nil => simp [deleteRoutes]
  | cons first ids ih =>
    have hrest := fun id hid => h id (List.mem_cons_of_mem first hid)
    unfold deleteRoutes
    rw [deleteResource_of_ok (h first (List.mem_cons_self ..))]
    dsimp only
    rw [ih _ hrest]
    by_cases hfirst : id = first <;> simp [hfirst, write]

/-- A refused deletion ends the loop and leaves its route in place. -/
theorem deleteRoutes_of_refused (g : Gateway) {ids : List String} (hid : id ∈ ids)
    (h : ans.deleteOk .routes id = false) :
    (deleteRoutes ans g ids).2.store .routes id = g.store .routes id := by
  induction ids generalizing g with
  | nil => cases hid
  | cons first ids ih =>
    unfold deleteRoutes
    cases hfirst : ans.deleteOk .routes first with
    | false =>
      obtain ⟨err, herr⟩ := deleteResource_of_not_ok (g := g) hfirst
      rw [herr]
    | true =>
      have hne : id ≠ first := by
        rintro rfl
        rw [h] at hfirst
        cases hfirst
      rw [deleteResource_of_ok hfirst]
      refine (ih _ (List.mem_of_ne_of_mem hne hid)).trans ?_
      simp [write, hne]

/-- Deleting routes changes neither the table nor the settings. -/
theorem deleteRoutes_frame (ans : Answers) (g : Gateway) (ids : List String) :
    (deleteRoutes ans g ids).2.routeIDs = g.routeIDs ∧
      (deleteRoutes ans g ids).2.config = g.config := by
  induction ids generalizing g with
  | nil => exact ⟨rfl, rfl⟩
  | cons first ids ih =>
    unfold deleteRoutes
    cases hfirst : ans.deleteOk .routes first with
    | false =>
      obtain ⟨err, herr⟩ := deleteResource_of_not_ok (g := g) hfirst
      rw [herr]
      exact ⟨rfl, rfl⟩
    | true =>
      rw [deleteResource_of_ok hfirst]
      exact ih _

/-- Deleting the upstream, or not getting that far, leaves the routes, the table and the settings
as the route loop left them. -/
theorem deregisterServiceDirect_after_routes (ans : Answers) (g : Gateway) (serviceID : String) :
    (g.deregisterServiceDirect ans serviceID).2.store .routes =
        (deleteRoutes ans (g.setRouteIDs serviceID []) (g.routeIDs serviceID)).2.store .routes ∧
      (g.deregisterServiceDirect ans serviceID).2.routeIDs =
        (deleteRoutes ans (g.setRouteIDs serviceID []) (g.routeIDs serviceID)).2.routeIDs ∧
      (g.deregisterServiceDirect ans serviceID).2.config =
        (deleteRoutes ans (g.setRouteIDs serviceID []) (g.routeIDs serviceID)).2.config := by
  unfold deregisterServiceDirect
  rcases deleteRoutes ans (g.setRouteIDs serviceID []) (g.routeIDs serviceID) with ⟨err, mid⟩
  cases err with
  | some err => exact ⟨rfl, rfl, rfl⟩
  | none =>
    dsimp only
    cases hup : ans.deleteOk .upstreams serviceID with
    | false =>
      obtain ⟨err, herr⟩ := deleteResource_of_not_ok (g := mid) hup
      rw [herr]
      exact ⟨rfl, rfl, rfl⟩
    | true =>
      rw [deleteResource_of_ok hup]
      refine ⟨?_, rfl, rfl⟩
      ext id : 1
      simp [write]

/-- Deregistration forgets its record, whatever the answers. -/
theorem deregisterServiceDirect_frame (ans : Answers) (g : Gateway) (serviceID : String) :
    (g.deregisterServiceDirect ans serviceID).2.routeIDs serviceID = [] ∧
      (g.deregisterServiceDirect ans serviceID).2.config = g.config := by
  obtain ⟨-, hrecord, hconfig⟩ := deregisterServiceDirect_after_routes ans g serviceID
  obtain ⟨hrecord', hconfig'⟩ :=
    deleteRoutes_frame ans (g.setRouteIDs serviceID []) (g.routeIDs serviceID)
  rw [hrecord, hrecord', hconfig, hconfig']
  exact ⟨Function.update_self .., rfl⟩

/-- With all its routes accepted, a deregistration removes exactly the recorded ones. -/
theorem deregisterServiceDirect_of_ok {g : Gateway}
    (h : ∀ id ∈ g.routeIDs serviceID, ans.deleteOk .routes id = true) (id : String) :
    (g.deregisterServiceDirect ans serviceID).2.store .routes id =
      if id ∈ g.routeIDs serviceID then none else g.store .routes id := by
  rw [(deregisterServiceDirect_after_routes ans g serviceID).1]
  exact deleteRoutes_of_ok (g.setRouteIDs serviceID []) h id

/-- A refused route ends the deregistration and stays. -/
theorem deregisterServiceDirect_of_refused {g : Gateway} {serviceID id : String}
    (hid : id ∈ g.routeIDs serviceID) (h : ans.deleteOk .routes id = false) :
    (g.deregisterServiceDirect ans serviceID).2.store .routes id = g.store .routes id := by
  rw [(deregisterServiceDirect_after_routes ans g serviceID).1]
  exact deleteRoutes_of_refused (g.setRouteIDs serviceID []) hid h

/-- With an empty record only the upstream is deleted. -/
theorem deregisterServiceDirect_of_empty {g : Gateway} (hempty : g.routeIDs serviceID = [])
    (h : ans.deleteOk .upstreams serviceID = true) :
    (g.deregisterServiceDirect ans serviceID).2.requests =
        g.requests ++ [.delete .upstreams serviceID] ∧
      (g.deregisterServiceDirect ans serviceID).2.store .upstreams serviceID = none := by
  unfold deregisterServiceDirect
  rw [hempty]
  unfold deleteRoutes
  dsimp only
  rw [deleteResource_of_ok h]
  exact ⟨rfl, by simp [write]⟩

/-- Writing routes sends requests about the routes of the service. -/
theorem putRoutes_requests (ans : Answers) (serviceID : String) (g : Gateway) (i : Nat)
    (routes : List GatewayRoute) (errs : List String) :
    ∃ sent, (putRoutes ans serviceID g i routes errs).2.requests = g.requests ++ sent ∧
      ∀ request ∈ sent, ∃ j body, request = .put .routes (routeID serviceID j) body := by
  induction routes generalizing g i errs with
  | nil => exact ⟨[], by simp [putRoutes]⟩
  | cons route routes ih =>
    have hfirst : (g.putResource ans .routes (routeID serviceID i)
        (.route (routeBody serviceID route))).2.requests = g.requests ++ [_] := send_requests
    unfold putRoutes
    generalize g.putResource ans .routes (routeID serviceID i)
      (.route (routeBody serviceID route)) = result at hfirst ⊢
    rcases result with ⟨err, g₁⟩
    dsimp only at hfirst
    cases err with
    | some err =>
      obtain ⟨sent, hsent, habout⟩ := ih g₁ (i + 1) (errs ++ [routeID serviceID i ++ ": " ++ err])
      exact ⟨_ :: sent, by rw [hsent, hfirst, List.append_assoc, List.singleton_append],
        List.forall_mem_cons.mpr ⟨⟨i, _, rfl⟩, habout⟩⟩
    | none =>
      obtain ⟨sent, hsent, habout⟩ := ih (g₁.setRouteIDs serviceID
        (g₁.routeIDs serviceID ++ [routeID serviceID i])) (i + 1) errs
      change _ = g₁.requests ++ sent at hsent
      exact ⟨_ :: sent, by rw [hsent, hfirst, List.append_assoc, List.singleton_append],
        List.forall_mem_cons.mpr ⟨⟨i, _, rfl⟩, habout⟩⟩

/-- A direct registration sends requests about the upstream and the routes of the service. -/
theorem registerServiceDirect_requests (ans : Answers) (g : Gateway) (svc : GatewayService) :
    ∃ sent, (g.registerServiceDirect ans svc).2.requests = g.requests ++ sent ∧
      ∀ request ∈ sent, (∃ body, request = .put .upstreams svc.id body) ∨
        ∃ j body, request = .put .routes (routeID svc.id j) body := by
  have hfirst : (g.putResource ans .upstreams svc.id
      (.upstream (toUpstreamBody svc.upstream svc.name))).2.requests = g.requests ++ [_] :=
    send_requests
  unfold registerServiceDirect
  generalize g.putResource ans .upstreams svc.id
    (.upstream (toUpstreamBody svc.upstream svc.name)) = result at hfirst ⊢
  rcases result with ⟨err, g₁⟩
  dsimp only at hfirst
  cases err with
  | some err => exact ⟨_, hfirst, List.forall_mem_singleton.mpr (.inl ⟨_, rfl⟩)⟩
  | none =>
    obtain ⟨sent, hsent, habout⟩ := putRoutes_requests ans svc.id (g₁.setRouteIDs svc.id []) 0
      svc.routes []
    change _ = g₁.requests ++ sent at hsent
    rw [hfirst, List.append_assoc, List.singleton_append] at hsent
    have hsent' : ∃ sent, (putRoutes ans svc.id (g₁.setRouteIDs svc.id []) 0 svc.routes
        []).2.requests = g.requests ++ sent ∧
          ∀ request ∈ sent, (∃ body, request = .put .upstreams svc.id body) ∨
            ∃ j body, request = .put .routes (routeID svc.id j) body :=
      ⟨_, hsent, List.forall_mem_cons.mpr ⟨.inl ⟨_, rfl⟩, fun request h => .inr (habout request h)⟩⟩
    dsimp only
    split
    · next hroutes => rwa [hroutes] at hsent'
    · next hroutes => rwa [hroutes] at hsent'

/-- The requests that delete what is recorded for a service. -/
def deletions (routeIDs : List String) (serviceID : String) : List Request :=
  routeIDs.map (Request.delete .routes) ++ [.delete .upstreams serviceID]

/-- The route loop sends the deletions up to the first refusal. -/
theorem deleteRoutes_requests (ans : Answers) (g : Gateway) (ids : List String) :
    ∃ sent, (deleteRoutes ans g ids).2.requests = g.requests ++ sent ∧
      sent.length ≤ ids.length ∧
      ((deleteRoutes ans g ids).1 = none ↔ ∀ id ∈ ids, ans.deleteOk .routes id = true) ∧
      ((∀ id ∈ ids, ans.deleteOk .routes id = true) → sent = ids.map (Request.delete .routes)) := by
  induction ids generalizing g with
  | nil => exact ⟨[], by simp [deleteRoutes]⟩
  | cons first ids ih =>
    unfold deleteRoutes
    cases hfirst : ans.deleteOk .routes first with
    | false =>
      obtain ⟨err, herr⟩ := deleteResource_of_not_ok (g := g) hfirst
      rw [herr]
      refine ⟨[.delete .routes first], rfl, by simp, by simp [hfirst], ?_⟩
      intro hall
      rw [hall first (List.mem_cons_self ..)] at hfirst
      cases hfirst
    | true =>
      rw [deleteResource_of_ok hfirst]
      dsimp only
      obtain ⟨sent, hsent, hlength, hnone, hall⟩ := ih
        (write { g with requests := g.requests ++ [.delete .routes first] } .routes first none)
      refine ⟨.delete .routes first :: sent, ?_, by simpa using hlength, ?_, ?_⟩
      · rw [hsent]
        simp [write]
      · rw [hnone]
        simp [hfirst]
      · intro hok
        rw [hall fun id hid => hok id (List.mem_cons_of_mem first hid)]
        rfl

/-- A direct deregistration sends the deletion of everything recorded exactly when no route is
refused. -/
theorem deregisterServiceDirect_requests (ans : Answers) (g : Gateway) (serviceID : String) :
    ∃ sent, (g.deregisterServiceDirect ans serviceID).2.requests = g.requests ++ sent ∧
      (sent = deletions (g.routeIDs serviceID) serviceID ↔
        ∀ id ∈ g.routeIDs serviceID, ans.deleteOk .routes id = true) := by
  obtain ⟨sent, hsent, hlength, hnone, hall⟩ :=
    deleteRoutes_requests ans (g.setRouteIDs serviceID []) (g.routeIDs serviceID)
  change _ = g.requests ++ sent at hsent
  unfold deregisterServiceDirect
  generalize deleteRoutes ans (g.setRouteIDs serviceID []) (g.routeIDs serviceID) = result
    at hsent hnone ⊢
  rcases result with ⟨err, g₁⟩
  dsimp only at hsent hnone ⊢
  cases err with
  | some err =>
    refine ⟨sent, hsent, iff_of_false ?_ fun hok => nomatch hnone.mpr hok⟩
    intro heq
    rw [heq] at hlength
    simp [deletions] at hlength
  | none =>
    have hok := hnone.mp rfl
    have hup : (g₁.deleteResource ans .upstreams serviceID).2.requests = g₁.requests ++ [_] :=
      send_requests
    dsimp only
    refine ⟨sent ++ [.delete .upstreams serviceID], ?_, iff_of_true ?_ hok⟩
    · rw [← List.append_assoc, ← hsent, ← hup]
      split
      · next hresult => rw [hresult]
      · next hresult => rw [hresult]
    · rw [hall hok]
      rfl

end Gateway

end Stardust.Register
