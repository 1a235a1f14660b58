import Stardust.HttpServer.ClientManager

/-!
# The index of users

`userIdMap` stays in step with `clients` exactly as long as no client leaves by unregistration
while its user's entry points to it, and no registration puts a client over one of another user.
A kick of a user reaches the one session that the index has for the user.
-/

namespace Stardust.HttpServer.Clients

open Manager

namespace Manager

variable {m m' : Manager} {l : Label}

/-- The loop keeps the index with the client that it has received: no entry of another user points
to the session of a registration, and none at all to that of an unregistration. -/
def KeepsIndex (m : Manager) : Label → Prop
  | .handle =>
    match m.loop with
    | .registering client => ∀ u ∈ m.registry.pointers client.sessionId, u = client.userId
    | .unregistering client => m.registry.pointers client.sessionId = []
    | _ => True
  | _ => True

instance (m : Manager) : (l : Label) → Decidable (m.KeepsIndex l)
  | .handle => by
    unfold KeepsIndex
    cases m.loop <;> dsimp only <;> infer_instance
  | .start | .call _ | .ignore _ | .receive _ | .quit | .kick _ | .once _ | .range _ _ | .send _
  | .collect _ _ | .close _ => isTrue trivial

private theorem keepsIndex_of_ne (hlabel : l ≠ .handle) : m.KeepsIndex l := by
  cases l <;> trivial

/-- A step keeps the index exactly when the loop's section does. -/
theorem indexed_step_iff (hm : m.registry.Indexed) (h : m.step l = some m') :
    m'.registry.Indexed ↔ m.KeepsIndex l := by
  cases step_moves h with
  | quiet hquiet hlabel =>
    rw [hquiet.registry]
    exact iff_of_true hm (keepsIndex_of_ne hlabel)
  | register client hloop hlabel hm' =>
    subst hm' hlabel
    rw [hm.register_iff]
    simp only [KeepsIndex, hloop]
  | unregister client hloop hlabel hm' =>
    subst hm' hlabel
    have hiff : (m.registry.unregister client).1.Indexed ↔
        m.registry.pointers client.sessionId = [] := hm.unregister_iff
    simp only [KeepsIndex, hloop]
    exact hiff
  | kick i method change hcall hchange hlabel hm' =>
    subst hm'
    exact iff_of_true (hm.kicked hchange) (keepsIndex_of_ne hlabel)
  | collect who order hwho hall hlabel hm' =>
    subst hm'
    rw [setShutdown_registry]
    exact iff_of_true (hm.shutdownClients hall) (keepsIndex_of_ne hlabel)
  | close who client rest hwho hlabel hm' =>
    subst hm'
    rw [setShutdown_registry]
    exact iff_of_true hm (keepsIndex_of_ne hlabel)

end Manager

/-- In all states of a run every entry of `userIdMap` points to a client of its user exactly when
the loop never registers a client over another user's indexed one and never unregisters a client
whose session the index has. -/
theorem index_consistent_iff_kept {m : Manager} {ls : List Label}
    (hrun : managers.run new ls = some m) :
    (∀ before after u, ls = before ++ after → managers.run new before = some u →
      u.registry.Indexed) ↔ managers.Guarded Manager.KeepsIndex new ls := by
  have hnew : new.registry.Indexed := by
    intro u s hu
    cases hu
  exact managers.forall_states_iff_guarded (I := fun _ => True) (fun _ _ _ _ _ => trivial)
    (fun _ _ _ _ hm hstep => indexed_step_iff hm hstep) trivial hnew hrun

/-- A client with its session and its user. -/
def alice : Client := ⟨0, "s1", "alice"⟩

/-- The same user in another session. -/
def aliceAgain : Client := ⟨1, "s2", "alice"⟩

/-- The loop receives what the call with a number sends, and works on it. -/
def accept (i : Nat) : List Label := [.receive i, .handle]

/-- Two sessions of one user are registered. -/
def registerTwice : List Label :=
  [.start, .call (.registerClient alice)] ++ accept 0 ++ [.call (.registerClient aliceAgain)] ++
    accept 1

/-- The second session is kicked, and the first unregistered afterwards. -/
def kickFirst : List Label :=
  [.call (.kickClientBySessionId "s2"), .kick 2, .call (.unregisterClient alice)] ++ accept 3

/-- The index stays consistent. -/
theorem index_consistent_when_kicked_first :
    ∃ m, managers.run new (registerTwice ++ kickFirst) = some m ∧
      ∀ before after u, registerTwice ++ kickFirst = before ++ after →
        managers.run new before = some u → u.registry.Indexed :=
  ⟨_, rfl, (index_consistent_iff_kept rfl).mpr (by decide)⟩

/-- An unregistered client leaves its user's entry behind. -/
theorem index_outlives_unregistered :
    ∃ m, managers.run new ([.start, .call (.registerClient alice)] ++ accept 0 ++
        [.call (.unregisterClient alice)] ++ accept 1) = some m ∧
      m.registry.userIdMap.lookup "alice" = some "s1" ∧ m.registry.clients.lookup "s1" = none ∧
      ¬ m.registry.Indexed := by
  refine ⟨_, rfl, rfl, rfl, fun h => ?_⟩
  obtain ⟨c, hc, -⟩ := h "alice" "s1" rfl
  cases hc

/-- A kick of a user removes all clients of the user exactly when each of them is in the session
that the index has for the user; what it removes is closed. -/
theorem kick_user_complete_iff_indexed {m m' : Manager} {i : Nat} {u : String}
    (hcall : m.calls[i]? = some (.entered (.kickClientByUserId u)))
    (hstep : managers.step m (.kick i) = some m') :
    ((∀ s c, m'.registry.clients.lookup s = some c → c.userId ≠ u) ∧
      ∀ s c, m.registry.clients.lookup s = some c → m'.registry.clients.lookup s ≠ some c →
        c ∈ m'.closed) ↔
      ∀ s c, m.registry.clients.lookup s = some c → c.userId = u →
        m.registry.userIdMap.lookup u = some s := by
  obtain ⟨-, h⟩ := Option.ite_none_left_eq_some.mp hstep
  simp only [kick, hcall, Option.some.injEq] at h
  subst h
  rw [← Registry.kickClientByUserId_complete_iff]
  refine and_iff_left ?_
  intro s c hc hremoved
  rcases (m.registry.kickClientByUserId_kicked u).kept_or_closed hc with hkept | hclosed
  · exact absurd hkept hremoved
  · exact List.mem_append_left _ hclosed

/-- A kick of the user waits while one session of the user is registered. -/
def kickingOne : Manager :=
  ⟨Registry.empty.register alice, false, .selecting,
    [.returned, .entered (.kickClientByUserId "alice")], [], [alice]⟩

/-- The only session of a user is kicked. -/
theorem kick_user_complete_with_one_session :
    managers.run new ([.start, .call (.registerClient alice)] ++ accept 0 ++
        [.call (.kickClientByUserId "alice")]) = some kickingOne ∧
      ∃ m', managers.step kickingOne (.kick 1) = some m' ∧
        (∀ s c, m'.registry.clients.lookup s = some c → c.userId ≠ "alice") ∧
        ∀ s c, kickingOne.registry.clients.lookup s = some c →
          m'.registry.clients.lookup s ≠ some c → c ∈ m'.closed := by
  refine ⟨rfl, _, rfl, (kick_user_complete_iff_indexed (i := 1) rfl rfl).mpr ?_⟩
  intro s c hc _
  have hentry := AList.mem_lookup_iff.mp hc
  cases List.mem_singleton.mp hentry
  rfl

/-- A kick of the user waits while two sessions of the user are registered. -/
def kickingTwo : Manager :=
  ⟨(Registry.empty.register alice).register aliceAgain, false, .selecting,
    [.returned, .returned, .entered (.kickClientByUserId "alice")], [], [aliceAgain, alice]⟩

/-- Of two sessions of one user the kick leaves the first. -/
theorem kick_user_leaves_other_session :
    managers.run new (registerTwice ++ [.call (.kickClientByUserId "alice")]) =
        some kickingTwo ∧
      kickingTwo.calls[2]? = some (.entered (.kickClientByUserId "alice")) ∧
      ∃ m', managers.step kickingTwo (.kick 2) = some m' ∧
        m'.registry.clients.lookup "s1" = some alice ∧ alice.userId = "alice" ∧
        alice ∉ m'.closed := by
  exact ⟨rfl, rfl, _, rfl, rfl, rfl, by decide⟩

end Stardust.HttpServer.Clients
