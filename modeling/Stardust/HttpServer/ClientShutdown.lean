import Stardust.HttpServer.ClientManager

/-!
# The shutdown of the client manager

`Stop` and the loop both run `shutdownClients`, and the loop may still receive a registration
after `stopChan` is closed. A client that the loop has accepted is with the loop, or in `clients`,
or in the list of someone who is going to close it, until it is closed; the loop's own shutdown
comes after its last registration. Where two clients share a session, one would be put over the
other without being closed.
-/

namespace Stardust.HttpServer.Clients

open Manager

open AList

/-- No two of the clients share a session. -/
def Distinct (all : Client → Prop) : Prop :=
  ∀ c c', all c → all c' → c.sessionId = c'.sessionId → c = c'

namespace Registry

variable {r r' : Registry} {client c : Client} {s s' : String} {all : Client → Prop}
  {change : Registry × List Client}

/-- Every client is in its own session, and is one of the clients involved. -/
def Keyed (all : Client → Prop) (r : Registry) : Prop :=
  ∀ s c, r.clients.lookup s = some c → c.sessionId = s ∧ all c

/-- All clients of one registry are in the other. -/
def Shrinks (r r' : Registry) : Prop :=
  ∀ s c, r'.clients.lookup s = some c → r.clients.lookup s = some c

/-- Fewer clients are still under their sessions. -/
theorem Keyed.shrinks (h : r.Keyed all) (hshrinks : r.Shrinks r') : r'.Keyed all :=
  fun s c hc => h s c (hshrinks s c hc)

private theorem clients_eq_empty_iff : r.clients = ∅ ↔ ∀ s c, r.clients.lookup s ≠ some c := by
  constructor
  · intro hempty s c
    rw [hempty]
    nofun
  · intro hnone
    apply ext
    rw [empty_entries, List.eq_nil_iff_forall_not_mem]
    rintro ⟨s, c⟩ hmem
    exact hnone s c (mem_lookup_iff.mpr hmem)

/-- Nothing is left of an empty registry. -/
theorem Shrinks.empty (hshrinks : r.Shrinks r') (hempty : r.clients = ∅) : r'.clients = ∅ := by
  rw [clients_eq_empty_iff] at hempty ⊢
  exact fun s c hc => hempty s c (hshrinks s c hc)

private theorem shrinks_erase (hclients : r'.clients = r.clients.erase s) : r.Shrinks r' := by
  intro s' c hc
  rw [hclients] at hc
  by_cases hs : s' = s
  · rw [hs, lookup_erase] at hc
    cases hc
  · rwa [lookup_erase_ne hs] at hc

/-- A kick adds no client. -/
theorem Kicked.shrinks (h : r.Kicked change) : r.Shrinks change.1 := by
  cases h with
  | nothing => exact fun _ _ hc => hc
  | client sessionId userId client _ _ => exact shrinks_erase rfl

/-- An unregistration adds no client. -/
theorem unregister_shrinks (r : Registry) (client : Client) :
    r.Shrinks (r.unregister client).1 := by
  unfold unregister
  cases r.clients.lookup client.sessionId with
  | none => exact fun _ _ hc => hc
  | some _ => exact shrinks_erase rfl

/-- A registration is made under the session. -/
theorem Keyed.register (h : r.Keyed all) (hclient : all client) :
    (r.register client).Keyed all := by
  intro s c hc
  by_cases hs : s = client.sessionId
  · rw [Registry.register, hs, lookup_insert] at hc
    cases hc
    exact ⟨hs.symm, hclient⟩
  · rw [Registry.register, lookup_insert_ne hs] at hc
    exact h s c hc

/-- A registration puts no other client out. -/
theorem lookup_register (hdistinct : Distinct all) (hclient : all client) (hall : all c)
    (hc : r.clients.lookup c.sessionId = some c) :
    (r.register client).clients.lookup c.sessionId = some c := by
  by_cases hs : c.sessionId = client.sessionId
  · rw [hdistinct c client hall hclient hs]
    exact lookup_insert _
  · exact (lookup_insert_ne hs).trans hc

/-- A client is still registered after an unregistration, or closed by it. -/
theorem unregister_kept_or_closed (hdistinct : Distinct all) (hclient : all client) (hall : all c)
    (hc : r.clients.lookup c.sessionId = some c) :
    (r.unregister client).1.clients.lookup c.sessionId = some c ∨
      c ∈ (r.unregister client).2 := by
  unfold unregister
  by_cases hs : c.sessionId = client.sessionId
  · have heq := hdistinct c client hall hclient hs
    subst heq
    rw [hc]
    exact .inr (List.mem_singleton_self _)
  · cases r.clients.lookup client.sessionId with
    | none => exact .inl hc
    | some _ => exact .inl ((lookup_erase_ne hs).trans hc)

end Registry

namespace Manager

/-- Where a client that the loop accepted can be. -/
inductive Kept (m : Manager) (c : Client) : Prop
  | closed (h : c ∈ m.closed)
  | received (h : m.loop = .registering c)
  | registered (h : m.registry.clients.lookup c.sessionId = some c)
  | pending (h : m.Pending c)

/-- The clients involved are known, and none that was accepted is lost. -/
structure Covered (all : Client → Prop) (m : Manager) : Prop where
  keyed : m.registry.Keyed all
  called : ∀ call ∈ m.calls, ∀ c, call.client = some c → all c
  looped : ∀ c, m.loop.client = some c → all c
  kept : ∀ c ∈ m.accepted, m.Kept c

variable {m m' : Manager} {l : Label} {c : Client} {all : Client → Prop}

private theorem Quiet.kept (h : Quiet m l m') (hc : m.Kept c) : m'.Kept c := by
  cases hc with
  | closed hclosed => exact .closed (h.closed ▸ hclosed)
  | received hloop => exact .received (h.received c hloop)
  | registered hlookup => exact .registered (h.registry ▸ hlookup)
  | pending hpending => exact .pending (h.pending c hpending)

private theorem Covered.quiet (hm : m.Covered all) (h : Quiet m l m')
    (hlabel : ∀ c, l.client = some c → all c) : m'.Covered all where
  keyed := h.registry ▸ hm.keyed
  called call hmem c hc := by
    rcases h.called call hmem c hc with ⟨call', hmem', hc'⟩ | hc'
    · exact hm.called call' hmem' c hc'
    · exact hlabel c hc'
  looped c hc := by
    rcases h.looped c hc with hc' | ⟨call', hmem', hc'⟩
    · exact hm.looped c hc'
    · exact hm.called call' hmem' c hc'
  kept c hc := by
    rcases h.accepted c hc with hc' | hloop
    · exact h.kept (hm.kept c hc')
    · exact .received hloop

/-- Registering the client that was received loses none. -/
theorem Covered.register {client : Client} (hm : m.Covered all) (hdistinct : Distinct all)
    (hloop : m.loop = .registering client) :
    Covered all { m with registry := m.registry.register client, loop := .selecting } := by
  have hclient : all client := hm.looped client (by rw [hloop]; rfl)
  refine ⟨hm.keyed.register hclient, hm.called, nofun, ?_⟩
  intro c hc
  cases hm.kept c hc with
  | closed hclosed => exact .closed hclosed
  | received hreceived =>
    rw [hloop] at hreceived
    cases hreceived
    exact .registered (lookup_insert _)
  | registered hlookup =>
    exact .registered
      (Registry.lookup_register hdistinct hclient (hm.keyed _ c hlookup).2 hlookup)
  | pending hpending =>
    have hselecting : ({ m with loop := .selecting } : Manager).Pending c :=
      hpending.setLoop (by rw [hloop]; nofun)
    obtain ⟨who, rest, hwho, hmem⟩ := hselecting
    refine .pending ⟨who, rest, ?_, hmem⟩
    cases who <;> exact hwho

/-- Changing the maps loses none if what is removed is closed. -/
theorem Covered.update {change : Registry × List Client} (hm : m.Covered all)
    (hshrinks : m.registry.Shrinks change.1)
    (hkept : ∀ c, all c → m.registry.clients.lookup c.sessionId = some c →
      change.1.clients.lookup c.sessionId = some c ∨ c ∈ change.2) :
    (m.update change).Covered all := by
  refine ⟨hm.keyed.shrinks hshrinks, hm.called, hm.looped, ?_⟩
  intro c hc
  cases hm.kept c hc with
  | closed hclosed => exact .closed (List.mem_append_right _ hclosed)
  | received hreceived => exact .received hreceived
  | registered hlookup =>
    rcases hkept c (hm.keyed _ c hlookup).2 hlookup with hlookup' | hclosed
    · exact .registered hlookup'
    · exact .closed (List.mem_append_left _ hclosed)
  | pending hpending =>
    obtain ⟨who, rest, hwho, hmem⟩ := hpending
    refine .pending ⟨who, rest, ?_, hmem⟩
    cases who <;> exact hwho

/-- A shutdown goes on without losing a client. -/
theorem Covered.setShutdown {who : Option Nat} {s : Shutdown} (hm : m.Covered all)
    (hwho : m.shutdown who = some s) (s' : Option Shutdown)
    (hrest : ∀ rest, s = .closing rest → ∀ c ∈ rest, c ∈ m.closed ∨
      ∃ rest', s' = some (.closing rest') ∧ c ∈ rest') :
    (m.setShutdown who s').Covered all := by
  refine ⟨?_, ?_, ?_, ?_⟩
  · rw [setShutdown_registry]
    exact hm.keyed
  · intro call hmem c hc
    obtain ⟨call', hmem', hc'⟩ := setShutdown_called s' hmem hc
    exact hm.called call' hmem' c hc'
  · intro c hc
    exact hm.looped c (setShutdown_looped s' hc)
  · intro c hc
    rw [setShutdown_accepted] at hc
    cases hm.kept c hc with
    | closed hclosed =>
      refine .closed ?_
      rwa [setShutdown_closed]
    | received hreceived => exact .received (setShutdown_received hwho s' hreceived)
    | registered hlookup =>
      refine .registered ?_
      rwa [setShutdown_registry]
    | pending hpending =>
      obtain ⟨who', rest, hwho', hmem⟩ := hpending
      by_cases heq : who' = who
      · subst heq
        rw [hwho, Option.some.injEq] at hwho'
        rcases hrest rest hwho' c hmem with hclosed | ⟨rest', hs', hmem'⟩
        · refine .closed ?_
          rwa [setShutdown_closed]
        · refine .pending ⟨who', rest', ?_, hmem'⟩
          rw [shutdown_setShutdown hwho, if_pos rfl, hs']
      · refine .pending ⟨who', rest, ?_, hmem⟩
        rw [shutdown_setShutdown hwho, if_neg heq]
        exact hwho'

/-- Removing all clients at once hands them over to a shutdown. -/
theorem Covered.collect {who : Option Nat} {order : List ClientEntry} (hm : m.Covered all)
    (hwho : m.shutdown who = some .entering) (hall : order.Perm m.registry.clients.entries) :
    Covered all ({ m with registry := m.registry.shutdownClients order }.setShutdown who
      (some (.closing (order.map Sigma.snd)))) := by
  have hcommute : { m with registry := m.registry.shutdownClients order }.setShutdown who
      (some (.closing (order.map Sigma.snd))) =
      { m.setShutdown who (some (.closing (order.map Sigma.snd))) with
        registry := m.registry.shutdownClients order } := by
    cases who <;> rfl
  have hcollecting := hm.setShutdown hwho (some (.closing (order.map Sigma.snd))) nofun
  rw [hcommute]
  refine ⟨?_, hcollecting.called, hcollecting.looped, ?_⟩
  · intro s c hc
    dsimp only at hc
    rw [Registry.clients_shutdownClients hall] at hc
    cases hc
  · intro c hc
    cases hcollecting.kept c hc with
    | closed hclosed => exact .closed hclosed
    | received hreceived => exact .received hreceived
    | registered hlookup =>
      rw [setShutdown_registry] at hlookup
      have hentry : (⟨c.sessionId, c⟩ : ClientEntry) ∈ order :=
        hall.mem_iff.mpr (mem_lookup_iff.mp hlookup)
      have hpending : (m.setShutdown who (some (.closing (order.map Sigma.snd)))).shutdown who =
          some (.closing (order.map Sigma.snd)) := by
        rw [shutdown_setShutdown hwho, if_pos rfl]
      refine .pending ⟨who, order.map Sigma.snd, ?_, List.mem_map_of_mem hentry⟩
      cases who <;> exact hpending
    | pending hpending =>
      obtain ⟨who', rest, hwho', hmem⟩ := hpending
      refine .pending ⟨who', rest, ?_, hmem⟩
      cases who' <;> exact hwho'

/-- Every step keeps track of the clients that were accepted. -/
theorem Covered.step (hm : m.Covered all) (hdistinct : Distinct all)
    (hlabel : ∀ c, l.client = some c → all c) (h : m.step l = some m') : m'.Covered all := by
  cases step_moves h with
  | quiet hquiet _ => exact hm.quiet hquiet hlabel
  | register client hloop _ hm' =>
    subst hm'
    exact hm.register hdistinct hloop
  | unregister client hloop _ hm' =>
    subst hm'
    have hclient : all client := hm.looped client (by rw [hloop]; rfl)
    have hupdated := hm.update (m.registry.unregister_shrinks client) fun c hall hc =>
      Registry.unregister_kept_or_closed hdistinct hclient hall hc
    have hquiet : Quiet (m.update (m.registry.unregister client)) .start
        { m.update (m.registry.unregister client) with loop := .selecting } :=
      quiet_setLoop (by rw [Manager.update, hloop]; nofun) (by rw [Manager.update, hloop]; nofun)
        rfl (by rw [Manager.update, hloop]; rfl)
    exact hupdated.quiet hquiet nofun
  | kick i method change hcall hchange _ hm' =>
    subst hm'
    have hupdated := hm.update hchange.shrinks fun c _ hc => hchange.kept_or_closed hc
    have hquiet : Quiet (m.update change) .start ((m.update change).setCall i .returned) :=
      quiet_setCall hcall nofun rfl
    exact hupdated.quiet hquiet nofun
  | collect who order hwho hall _ hm' =>
    subst hm'
    exact hm.collect hwho hall
  | close who client rest hwho _ hm' =>
    subst hm'
    have hclosing : Covered all (m.update (m.registry, [client])) :=
      hm.update (fun _ _ hc => hc) fun _ _ hc => .inl hc
    have hwho' : (m.update (m.registry, [client])).shutdown who =
        some (.closing (client :: rest)) := by
      cases who <;> exact hwho
    refine hclosing.setShutdown hwho' (some (.closing rest)) ?_
    intro rest' heq c hc
    cases heq
    rcases List.mem_cons.mp hc with rfl | hc
    · exact .inl (List.mem_cons_self ..)
    · exact .inr ⟨rest, rfl, hc⟩

/-- A loop that has removed the clients stays so, and the clients stay away. -/
theorem drained_step (hdrained : m.loop.drained = true) (hempty : m.registry.clients = ∅)
    (h : m.step l = some m') : m'.loop.drained = true ∧ m'.registry.clients = ∅ := by
  cases step_moves h with
  | quiet hquiet _ =>
    rw [hquiet.registry, hquiet.drained]
    exact ⟨hdrained, hempty⟩
  | register client hloop _ _ =>
    rw [hloop] at hdrained
    cases hdrained
  | unregister client hloop _ _ =>
    rw [hloop] at hdrained
    cases hdrained
  | kick i method change _ hchange _ hm' =>
    subst hm'
    exact ⟨hdrained, hchange.shrinks.empty hempty⟩
  | collect who order _ hall _ hm' =>
    subst hm'
    rw [setShutdown_registry]
    refine ⟨?_, Registry.clients_shutdownClients hall⟩
    cases who with
    | none => rfl
    | some i => exact hdrained
  | close who client rest _ _ hm' =>
    subst hm'
    rw [setShutdown_registry]
    refine ⟨?_, hempty⟩
    cases who with
    | none => rfl
    | some i => exact hdrained

/-- Once the loop has removed the clients there are none. -/
def Drained (m : Manager) : Prop := m.loop.drained = true → m.registry.clients = ∅

private theorem Drained.step (hm : m.Drained) (h : m.step l = some m') : m'.Drained := by
  intro hdrained
  by_cases hbefore : m.loop.drained = true
  · exact (drained_step hbefore (hm hbefore) h).2
  · cases step_moves h with
    | quiet hquiet _ =>
      rw [hquiet.drained] at hdrained
      exact absurd hdrained hbefore
    | register client _ _ hm' =>
      subst hm'
      cases hdrained
    | unregister client _ _ hm' =>
      subst hm'
      cases hdrained
    | kick i method change _ _ _ hm' =>
      subst hm'
      exact absurd hdrained hbefore
    | collect who order _ hall _ hm' =>
      subst hm'
      rw [setShutdown_registry]
      exact Registry.clients_shutdownClients hall
    | close who client rest hwho _ hm' =>
      subst hm'
      cases who with
      | none =>
        rw [loop_of_shutdown hwho] at hbefore
        exact absurd rfl hbefore
      | some i => exact absurd hdrained hbefore

end Manager

/-- The call is one of `Stop` or of a kick. -/
def Call.ends : Call → Bool
  | .entered .stop => true
  | .entered (.kickClientByUserId _) => true
  | .entered (.kickClientBySessionId _) => true
  | .shutting _ => true
  | _ => false

/-- The loop has exited, and every call of `Stop` and every kick has returned. -/
def Manager.Over (m : Manager) : Prop := m.loop = .exited ∧ ∀ call ∈ m.calls, call.ends = false

/-- The clients of the calls of a run. -/
def Involved (ls : List Label) (c : Client) : Prop := c ∈ ls.filterMap Label.client

private theorem Manager.new_covered (all : Client → Prop) : new.Covered all where
  keyed _ _ hc := by cases hc
  called _ hmem := by cases hmem
  looped _ hc := by cases hc
  kept _ hc := by cases hc

/-- In every run whose clients have distinct sessions, once the loop has exited and every `Stop`
and every kick has returned, there are no clients and there never will be, and every client that
the loop accepted was closed. -/
theorem shutdown_complete {m : Manager} {ls : List Label}
    (hrun : managers.run new ls = some m) (hdistinct : Distinct (Involved ls))
    (hover : m.Over) :
    m.registry.clients = ∅ ∧
      (∀ ls' m', managers.run m ls' = some m' → m'.registry.clients = ∅) ∧
      ∀ c ∈ m.accepted, c ∈ m.closed := by
  obtain ⟨hexited, hreturned⟩ := hover
  have hloop : m.loop.drained = true := by
    rw [hexited]
    rfl
  have hdrained : m.Drained :=
    managers.run_invariant (fun _ _ _ hm hstep => Manager.Drained.step hm hstep) (fun _ => rfl)
      hrun
  have hempty := hdrained hloop
  have hinvolved : managers.Guarded (fun _ l => ∀ c, l.client = some c → Involved ls c)
      new ls :=
    managers.guarded_of_forall fun l hl _ c hc => List.mem_filterMap.mpr ⟨l, hl, hc⟩
  have hcovered : m.Covered (Involved ls) :=
    managers.run_guarded (P := Manager.Covered (Involved ls))
      (fun _ _ _ hm hlabel hstep => hm.step hdistinct hlabel hstep)
      (new_covered _) hinvolved hrun
  refine ⟨hempty, ?_, ?_⟩
  · intro ls' m' hrun'
    exact (managers.run_invariant
      (P := fun m => m.loop.drained = true ∧ m.registry.clients = ∅)
      (fun _ _ _ hm hstep => drained_step hm.1 hm.2 hstep) ⟨hloop, hempty⟩ hrun').2
  · intro c hc
    cases hcovered.kept c hc with
    | closed hclosed => exact hclosed
    | received hreceived =>
      rw [hexited] at hreceived
      cases hreceived
    | registered hlookup =>
      rw [hempty] at hlookup
      cases hlookup
    | pending hpending =>
      obtain ⟨who, rest, hwho, -⟩ := hpending
      cases who with
      | none =>
        rw [loop_of_shutdown hwho] at hexited
        cases hexited
      | some i =>
        have hshutting := call_of_shutdown hwho
        cases hreturned _ (List.mem_of_getElem? hshutting)

/-- A client that is registered before the stop. -/
def early : Client := ⟨0, "s1", "alice"⟩

/-- A client that the loop receives after `stopChan` is closed. -/
def late : Client := ⟨1, "s2", "bob"⟩

/-- The loop takes the late registration; `Stop` then removes and closes both clients while the
loop finds none left. -/
def stopWhileRegistering : List Label :=
  [.start, .call (.registerClient early), .receive 0, .handle, .call .stop,
    .call (.registerClient late), .once 1, .receive 2, .handle,
    .collect (some 1) [⟨"s1", early⟩, ⟨"s2", late⟩], .close (some 1), .quit, .collect none [],
    .close none, .close (some 1), .close (some 1)]

/-- Both clients are closed. -/
theorem shutdown_complete_with_late_client :
    ∃ m, managers.run new stopWhileRegistering = some m ∧ m.Over ∧
      m.accepted = [late, early] ∧ m.registry.clients = ∅ ∧
      (∀ ls' m', managers.run m ls' = some m' → m'.registry.clients = ∅) ∧
      ∀ c ∈ m.accepted, c ∈ m.closed := by
  have hdistinct : Distinct (Involved stopWhileRegistering) := by
    have hpairs : ∀ c ∈ stopWhileRegistering.filterMap Label.client,
        ∀ c' ∈ stopWhileRegistering.filterMap Label.client,
          c.sessionId = c'.sessionId → c = c' := by
      decide
    exact fun c c' hc hc' => hpairs c hc c' hc'
  have hover : ((managers.run new stopWhileRegistering).getD new).Over :=
    ⟨rfl, by decide⟩
  exact ⟨_, rfl, hover, rfl, shutdown_complete rfl hdistinct hover⟩

end Stardust.HttpServer.Clients
