import Stardust.HttpServer.ClientIndex
import Stardust.HttpServer.ClientShutdown

/-!
# Removing one client

An unregistration removes whatever client the session has, and a kick of a session removes the
entry of the client's user, whatever session the entry points to. Neither looks at the client
itself, so that a client which came back in the session of an older one is removed with it, and a
user's other session is forgotten by the index.
-/

namespace Stardust.HttpServer.Clients

/-- What removes one client. -/
inductive Removal where
  /-- The loop works on an unregistration. -/
  | unregister (client : Client)
  /-- The section of `KickClientBySessionId`. -/
  | kickSession (sessionId : String)
  deriving DecidableEq

/-- The removal that a step makes. -/
def Manager.removal (m : Manager) : Label → Option Removal
  | .handle =>
    match m.loop with
    | .unregistering client => some (.unregister client)
    | _ => none
  | .kick i =>
    match m.calls[i]? with
    | some (.entered (.kickClientBySessionId sessionId)) => some (.kickSession sessionId)
    | _ => none
  | _ => none

namespace Removal

/-- The client that is to be removed, if there is one. -/
def target (r : Registry) : Removal → Option Client
  | .unregister client => some client
  | .kickSession sessionId => r.clients.lookup sessionId

/-- The maps after a removal. -/
def apply (r : Registry) : Removal → Registry
  | .unregister client => (r.unregister client).1
  | .kickSession sessionId => (r.kickClientBySessionId sessionId).1

/-- The session of an unregistered client has that client or none, and the user of a kicked client
has no other session with a client in the index. -/
def Aimed (r : Registry) : Removal → Prop
  | .unregister client => ∀ c ∈ r.clients.lookup client.sessionId, c = client
  | .kickSession sessionId =>
    ∀ c ∈ r.clients.lookup sessionId, ∀ s ∈ r.userIdMap.lookup c.userId,
      s = sessionId ∨ r.clients.lookup s = none

end Removal

namespace Registry

/-- No client but the one to be removed disappears, and every entry of `userIdMap` that points to
another client which is still registered is unchanged. -/
structure LeavesOthers (r r' : Registry) (target : Option Client) : Prop where
  clients : ∀ s c, r.clients.lookup s = some c → target ≠ some c → r'.clients.lookup s = some c
  userIdMap : ∀ u s c, r.userIdMap.lookup u = some s → r.clients.lookup s = some c →
    target ≠ some c → r'.clients.lookup s = some c → r'.userIdMap.lookup u = some s

variable {r : Registry} {client c : Client} {sessionId : String}

private theorem shutdownClients_shrinks (r : Registry) (order : List ClientEntry) :
    r.Shrinks (r.shutdownClients order) := by
  intro s c hc
  rw [lookup_clients_shutdownClients] at hc
  split at hc
  · cases hc
  · exact hc

/-- An unregistration leaves other clients alone exactly when its session has none of them. -/
theorem unregister_leavesOthers_iff :
    r.LeavesOthers (r.unregister client).1 (some client) ↔
      ∀ c ∈ r.clients.lookup client.sessionId, c = client := by
  unfold unregister
  cases hfound : r.clients.lookup client.sessionId with
  | none => exact iff_of_true ⟨fun _ _ hc _ => hc, fun _ _ _ hu _ _ _ => hu⟩ nofun
  | some found =>
    constructor
    · rintro h c ⟨⟩
      by_contra hne
      have hkept := h.clients client.sessionId found hfound
        fun heq => hne (Option.some.inj heq).symm
      rw [AList.lookup_erase] at hkept
      cases hkept
    · intro h
      obtain rfl := h found rfl
      refine ⟨fun s c hc hne => ?_, fun _ _ _ hu _ _ _ => hu⟩
      have hs : s ≠ found.sessionId := by
        rintro rfl
        exact hne (hfound.symm.trans hc)
      exact (AList.lookup_erase_ne hs).trans hc

/-- A kick of a session leaves other clients alone exactly when the index has no other session with
a client for the user. -/
theorem kickClientBySessionId_leavesOthers_iff (hkeyed : r.Keyed fun _ => True) :
    r.LeavesOthers (r.kickClientBySessionId sessionId).1 (r.clients.lookup sessionId) ↔
      ∀ c ∈ r.clients.lookup sessionId, ∀ s ∈ r.userIdMap.lookup c.userId,
        s = sessionId ∨ r.clients.lookup s = none := by
  unfold kickClientBySessionId
  cases hkicked : r.clients.lookup sessionId with
  | none => exact iff_of_true ⟨fun _ _ hc _ => hc, fun _ _ _ hu _ _ _ => hu⟩ nofun
  | some kicked =>
    constructor
    · rintro h c ⟨⟩ s hs
      by_contra hother
      rw [not_or] at hother
      obtain ⟨c, hc⟩ := Option.ne_none_iff_exists'.mp hother.2
      have hne : some kicked ≠ some c := by
        intro heq
        have hsame : sessionId = s := by
          rw [← (hkeyed sessionId kicked hkicked).1, ← (hkeyed s c hc).1, Option.some.inj heq]
        exact hother.1 hsame.symm
      have hkept := h.userIdMap kicked.userId s c hs hc hne
        ((AList.lookup_erase_ne hother.1).trans hc)
      rw [AList.lookup_erase] at hkept
      cases hkept
    · intro h
      have hclients : ∀ s c, r.clients.lookup s = some c → some kicked ≠ some c →
          (r.clients.erase sessionId).lookup s = some c := by
        intro s c hc hne
        have hs : s ≠ sessionId := by
          rintro rfl
          exact hne (hkicked.symm.trans hc)
        exact (AList.lookup_erase_ne hs).trans hc
      refine ⟨hclients, fun u s c hu hc hne _ => ?_⟩
      have huser : u ≠ kicked.userId := by
        rintro rfl
        rcases h kicked rfl s hu with rfl | hnone
        · exact hne (hkicked.symm.trans hc)
        · rw [hnone] at hc
          cases hc
      exact (AList.lookup_erase_ne huser).trans hu

end Registry

namespace Manager

variable {m m' : Manager} {l : Label} {x : Removal}

/-- In every run each client is under its own session. -/
theorem keyed_of_reachable (h : managers.Reachable m) : m.registry.Keyed fun _ => True := by
  refine h.invariant (P := fun m => m.registry.Keyed fun _ => True) ?_ fun m l m' hm hstep => ?_
  · rintro m rfl
    exact nofun
  · cases step_moves hstep with
    | quiet hquiet hlabel => rwa [hquiet.registry]
    | register client hloop hlabel hm' =>
      subst hm'
      exact hm.register trivial
    | unregister client hloop hlabel hm' =>
      subst hm'
      exact hm.shrinks (Registry.unregister_shrinks _ client)
    | kick i method change hcall hchange hlabel hm' =>
      subst hm'
      exact hm.shrinks hchange.shrinks
    | collect who order hwho hall hlabel hm' =>
      subst hm'
      rw [setShutdown_registry]
      exact hm.shrinks (Registry.shutdownClients_shrinks _ order)
    | close who client rest hwho hlabel hm' =>
      subst hm'
      rw [setShutdown_registry]
      exact hm

/-- The maps after a step that removes a client. -/
theorem registry_of_removal (hx : m.removal l = some x) (hstep : managers.step m l = some m') :
    m'.registry = x.apply m.registry := by
  unfold removal at hx
  split at hx
  · split at hx
    · rename_i client hloop
      cases hx
      obtain ⟨-, hhandle⟩ := Option.ite_none_left_eq_some.mp hstep
      rw [handle, hloop, Option.some.injEq] at hhandle
      rw [← hhandle]
      rfl
    · cases hx
  · split at hx
    · rename_i i sessionId hcall
      cases hx
      obtain ⟨-, hkick⟩ := Option.ite_none_left_eq_some.mp hstep
      rw [kick, hcall, Option.some.injEq] at hkick
      rw [← hkick]
      rfl
    · cases hx
  · cases hx

end Manager

/-- In every reachable state, an unregistration or a kick of a session leaves the other clients and
their entries in the index alone exactly when it is aimed at its client. -/
theorem removal_leaves_others_iff (m m' : Manager) (l : Label) (x : Removal)
    (hreach : managers.Reachable m) (hx : m.removal l = some x)
    (hstep : managers.step m l = some m') :
    m.registry.LeavesOthers m'.registry (x.target m.registry) ↔ x.Aimed m.registry := by
  rw [Manager.registry_of_removal hx hstep]
  cases x with
  | unregister client => exact Registry.unregister_leavesOthers_iff
  | kickSession sessionId =>
    exact Registry.kickClientBySessionId_leavesOthers_iff (Manager.keyed_of_reachable hreach)

/-- Two sessions of one user are registered, and the loop has received the unregistration of the
first. -/
def unregisterFirst : List Label :=
  registerTwice ++ [.call (.unregisterClient alice), .receive 2]

/-- The first of two sessions is unregistered. -/
theorem removal_leaves_second_session :
    ∃ m m', managers.run Manager.new unregisterFirst = some m ∧
      m.removal .handle = some (.unregister alice) ∧ managers.step m .handle = some m' ∧
      m.registry.LeavesOthers m'.registry (some alice) := by
  refine ⟨_, _, rfl, rfl, rfl, ?_⟩
  refine (removal_leaves_others_iff _ _ .handle (.unregister alice)
    ⟨Manager.new, unregisterFirst, rfl, rfl⟩ rfl rfl).mpr ?_
  intro c hc
  exact (Option.some.inj hc).symm

/-- The user has come back in the same session with another client. -/
def aliceBack : Client := ⟨2, "s1", "alice"⟩

/-- The loop has received the unregistration of a client whose session has another by now. -/
def unregisterLate : List Label :=
  ([.start, .call (.registerClient alice)] : List Label) ++ accept 0 ++
    ([.call (.registerClient aliceBack)] : List Label) ++ accept 1 ++
    ([.call (.unregisterClient alice), .receive 2] : List Label)

/-- A late unregistration removes the client that came back, and a kick of one session of a user
removes the entry of the other. -/
theorem removal_takes_another_client :
    (∃ m m', managers.run Manager.new unregisterLate = some m ∧
      m.removal .handle = some (.unregister alice) ∧ managers.step m .handle = some m' ∧
      m.registry.clients.lookup "s1" = some aliceBack ∧ m'.registry.clients.lookup "s1" = none ∧
      ¬ m.registry.LeavesOthers m'.registry (some alice)) ∧
    (∃ m m', managers.run Manager.new (registerTwice ++ [.call (.kickClientBySessionId "s1")]) =
        some m ∧
      m.removal (.kick 2) = some (.kickSession "s1") ∧ managers.step m (.kick 2) = some m' ∧
      m.registry.userIdMap.lookup "alice" = some "s2" ∧
      m'.registry.clients.lookup "s2" = some aliceAgain ∧
      m'.registry.userIdMap.lookup "alice" = none ∧
      ¬ m.registry.LeavesOthers m'.registry (some alice)) := by
  refine ⟨⟨_, _, rfl, rfl, rfl, rfl, rfl, fun h => ?_⟩,
    ⟨_, _, rfl, rfl, rfl, rfl, rfl, rfl, fun h => ?_⟩⟩
  · exact nomatch h.clients "s1" aliceBack rfl (by decide)
  · exact nomatch h.userIdMap "alice" "s2" aliceAgain rfl rfl (by decide) rfl

end Stardust.HttpServer.Clients
