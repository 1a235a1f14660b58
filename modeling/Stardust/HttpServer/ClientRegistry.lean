import Mathlib.Data.List.AList

/-!
# The two maps of the client manager

`clients` has the clients by session and `userIdMap` the session of each user. The operations are
the sections of the manager under its lock, each with the clients that it closes.
-/

namespace Stardust.HttpServer.Clients

open AList

/-- A client: the connection object, told apart by `ref`, with its session and its user. -/
structure Client where
  ref : Nat
  sessionId : String
  userId : String
  deriving DecidableEq, Repr

/-- An entry of `clients`. -/
abbrev ClientEntry := Sigma fun _ : String => Client

/-- The maps of a `ClientManager`. -/
structure Registry where
  clients : AList fun _ : String => Client
  userIdMap : AList fun _ : String => String

namespace Registry

/-- No client is registered. -/
def empty : Registry := ⟨∅, ∅⟩

/-- The case of the loop for a received registration. -/
def register (r : Registry) (client : Client) : Registry :=
  ⟨r.clients.insert client.sessionId client, r.userIdMap.insert client.userId client.sessionId⟩

/-- The case of the loop for a received unregistration: it closes the client it was given, and
does not touch `userIdMap`. -/
def unregister (r : Registry) (client : Client) : Registry × List Client :=
  match r.clients.lookup client.sessionId with
  | some _ => (⟨r.clients.erase client.sessionId, r.userIdMap⟩, [client])
  | none => (r, [])

/-- Remove the client of a user, and return it to be closed. -/
def kickClientByUserId (r : Registry) (userId : String) : Registry × List Client :=
  match r.userIdMap.lookup userId with
  | some sessionId =>
    match r.clients.lookup sessionId with
    | some client => (⟨r.clients.erase sessionId, r.userIdMap.erase userId⟩, [client])
    | none => (r, [])
  | none => (r, [])

/-- Remove the client of a session, and return it to be closed. -/
def kickClientBySessionId (r : Registry) (sessionId : String) : Registry × List Client :=
  match r.clients.lookup sessionId with
  | some client => (⟨r.clients.erase sessionId, r.userIdMap.erase client.userId⟩, [client])
  | none => (r, [])

/-- The locked part of `shutdownClients`, with the entries in the order of the iteration. -/
def shutdownClients (r : Registry) : List ClientEntry → Registry
  | [] => r
  | ⟨sessionId, client⟩ :: order =>
    shutdownClients ⟨r.clients.erase sessionId, r.userIdMap.erase client.userId⟩ order

/-- What a kick can do: it changes nothing, or removes the client of a session, with one entry of
`userIdMap`, and closes the client. -/
inductive Kicked (r : Registry) : Registry × List Client → Prop
  | nothing : r.Kicked (r, [])
  | client (sessionId userId : String) (client : Client)
      (h : r.clients.lookup sessionId = some client)
      (huser : userId = client.userId ∨ r.userIdMap.lookup userId = some sessionId) :
      r.Kicked (⟨r.clients.erase sessionId, r.userIdMap.erase userId⟩, [client])

/-- Every entry of `userIdMap` points to a client of that user. -/
def Indexed (r : Registry) : Prop :=
  ∀ u s, r.userIdMap.lookup u = some s → ∃ c, r.clients.lookup s = some c ∧ c.userId = u

/-- The users whose entry points to a session. -/
def pointers (r : Registry) (sessionId : String) : List String :=
  (r.userIdMap.entries.filter fun e => e.2 = sessionId).map Sigma.fst

variable {r : Registry} {client c : Client} {u s : String} {order : List ClientEntry}

/-- A kick by user removes at most that client. -/
theorem kickClientByUserId_kicked (r : Registry) (userId : String) :
    r.Kicked (r.kickClientByUserId userId) := by
  unfold kickClientByUserId
  cases hsession : r.userIdMap.lookup userId with
  | none => exact .nothing
  | some sessionId =>
    dsimp only
    cases hclient : r.clients.lookup sessionId with
    | none => exact .nothing
    | some client => exact .client sessionId userId client hclient (.inr hsession)

/-- A kick by session removes at most that client. -/
theorem kickClientBySessionId_kicked (r : Registry) (sessionId : String) :
    r.Kicked (r.kickClientBySessionId sessionId) := by
  unfold kickClientBySessionId
  cases hclient : r.clients.lookup sessionId with
  | none => exact .nothing
  | some client => exact .client sessionId client.userId client hclient (.inl rfl)

private theorem mem_pointers : u ∈ r.pointers s ↔ r.userIdMap.lookup u = some s := by
  rw [← Option.mem_def, mem_lookup_iff]
  simp only [pointers, List.mem_map, List.mem_filter, decide_eq_true_eq]
  constructor
  · rintro ⟨⟨u', s'⟩, ⟨hmem, rfl⟩, rfl⟩
    exact hmem
  · intro hmem
    exact ⟨⟨u, s⟩, ⟨hmem, rfl⟩, rfl⟩

/-- Entries that point to a session point to the client there. -/
theorem Indexed.user_eq (h : r.Indexed) (hclient : r.clients.lookup s = some c)
    (hu : r.userIdMap.lookup u = some s) : c.userId = u := by
  obtain ⟨c', hc', huser⟩ := h u s hu
  rw [hclient] at hc'
  cases hc'
  exact huser

/-- A registration keeps the index exactly when no entry of another user points to its session. -/
theorem Indexed.register_iff (h : r.Indexed) :
    (r.register client).Indexed ↔ ∀ u ∈ r.pointers client.sessionId, u = client.userId := by
  constructor
  · intro hindexed u hu
    by_contra hne
    rw [mem_pointers] at hu
    have hkept : (r.register client).userIdMap.lookup u = some client.sessionId := by
      rw [register, lookup_insert_ne hne]
      exact hu
    exact hne (hindexed.user_eq (lookup_insert _) hkept).symm
  · intro hothers u s hu
    by_cases huser : u = client.userId
    · subst huser
      rw [register, lookup_insert, Option.some.injEq] at hu
      subst hu
      exact ⟨client, lookup_insert _, rfl⟩
    · rw [register, lookup_insert_ne huser] at hu
      have hs : s ≠ client.sessionId := by
        rintro rfl
        exact huser (hothers u (mem_pointers.mpr hu))
      obtain ⟨c, hc, hcu⟩ := h u s hu
      exact ⟨c, (lookup_insert_ne hs).trans hc, hcu⟩

/-- An unregistration keeps the index exactly when no entry points to its session. -/
theorem Indexed.unregister_iff (h : r.Indexed) :
    (r.unregister client).1.Indexed ↔ r.pointers client.sessionId = [] := by
  have hempty : r.pointers client.sessionId = [] ↔
      ∀ u, r.userIdMap.lookup u ≠ some client.sessionId := by
    rw [List.eq_nil_iff_forall_not_mem]
    exact forall_congr' fun u => not_congr mem_pointers
  rw [hempty]
  unfold unregister
  cases hclient : r.clients.lookup client.sessionId with
  | none =>
    refine iff_of_true h ?_
    intro u hu
    obtain ⟨c, hc, -⟩ := h u _ hu
    rw [hclient] at hc
    cases hc
  | some c₀ =>
    constructor
    · intro hindexed u hu
      obtain ⟨c, hc, -⟩ := hindexed u _ hu
      rw [lookup_erase] at hc
      cases hc
    · intro hnone u s hu
      have hs : s ≠ client.sessionId := by
        rintro rfl
        exact hnone u hu
      obtain ⟨c, hc, hcu⟩ := h u s hu
      exact ⟨c, (lookup_erase_ne hs).trans hc, hcu⟩

/-- Removing a client together with its user's entry keeps the index. -/
theorem Indexed.erase (h : r.Indexed) (hclient : r.clients.lookup s = some c) :
    Indexed ⟨r.clients.erase s, r.userIdMap.erase c.userId⟩ := by
  intro u s' hu
  dsimp only at hu ⊢
  have huser : u ≠ c.userId := by
    rintro rfl
    rw [lookup_erase] at hu
    cases hu
  rw [lookup_erase_ne huser] at hu
  have hs : s' ≠ s := by
    rintro rfl
    exact huser (h.user_eq hclient hu).symm
  obtain ⟨c', hc', hcu⟩ := h u s' hu
  exact ⟨c', (lookup_erase_ne hs).trans hc', hcu⟩

/-- Kicks keep the index. -/
theorem Indexed.kicked (h : r.Indexed) {change : Registry × List Client} (hkick : r.Kicked change) :
    change.1.Indexed := by
  cases hkick with
  | nothing => exact h
  | client sessionId userId client hclient huser =>
    have heq : userId = client.userId := by
      rcases huser with heq | hsession
      · exact heq
      · exact (h.user_eq hclient hsession).symm
    rw [heq]
    exact h.erase hclient

/-- The shutdown leaves the sessions that it did not come by. -/
theorem lookup_clients_shutdownClients :
    (r.shutdownClients order).clients.lookup s =
      if s ∈ order.map Sigma.fst then none else r.clients.lookup s := by
  induction order generalizing r with
  | nil => rfl
  | cons e order ih =>
    rw [shutdownClients, ih, List.map_cons]
    by_cases hs : s = e.1
    · subst hs
      simp only [List.mem_cons, true_or, if_true, lookup_erase, ite_self]
    · simp only [List.mem_cons, hs, false_or, lookup_erase_ne hs]

/-- The shutdown leaves the users whose clients it did not come by. -/
theorem lookup_userIdMap_shutdownClients :
    (r.shutdownClients order).userIdMap.lookup u =
      if u ∈ order.map (·.2.userId) then none else r.userIdMap.lookup u := by
  induction order generalizing r with
  | nil => rfl
  | cons e order ih =>
    rw [shutdownClients, ih, List.map_cons]
    by_cases hu : u = e.2.userId
    · subst hu
      simp only [List.mem_cons, true_or, if_true, lookup_erase, ite_self]
    · simp only [List.mem_cons, hu, false_or, lookup_erase_ne hu]

/-- A shutdown that comes by all entries empties `clients`. -/
theorem clients_shutdownClients (hall : order.Perm r.clients.entries) :
    (r.shutdownClients order).clients = ∅ := by
  apply ext
  rw [empty_entries, List.eq_nil_iff_forall_not_mem]
  rintro ⟨s, c⟩ hmem
  have hlookup : (r.shutdownClients order).clients.lookup s = some c :=
    mem_lookup_iff.mpr hmem
  rw [lookup_clients_shutdownClients] at hlookup
  split at hlookup
  · cases hlookup
  · rename_i hs
    have hentry : (⟨s, c⟩ : ClientEntry) ∈ r.clients.entries := mem_lookup_iff.mp hlookup
    exact hs (List.mem_map_of_mem (hall.mem_iff.mpr hentry))

/-- A shutdown that comes by all entries leaves no entry of the index that pointed to a client. -/
theorem Indexed.shutdownClients (h : r.Indexed) (hall : order.Perm r.clients.entries) :
    (r.shutdownClients order).Indexed := by
  intro u s hu
  rw [lookup_userIdMap_shutdownClients] at hu
  split at hu
  · cases hu
  · rename_i hnone
    obtain ⟨c, hc, rfl⟩ := h u s hu
    have hentry : (⟨s, c⟩ : ClientEntry) ∈ r.clients.entries := mem_lookup_iff.mp hc
    exact absurd (List.mem_map_of_mem (hall.mem_iff.mpr hentry)) hnone

/-- A kick of a user leaves none of the user's clients exactly when each of them is in the session
that the index has. -/
theorem kickClientByUserId_complete_iff :
    (∀ s c, (r.kickClientByUserId u).1.clients.lookup s = some c → c.userId ≠ u) ↔
      ∀ s c, r.clients.lookup s = some c → c.userId = u → r.userIdMap.lookup u = some s := by
  unfold kickClientByUserId
  cases hsession : r.userIdMap.lookup u with
  | none => simp
  | some s₀ =>
    dsimp only
    cases hclient : r.clients.lookup s₀ with
    | none =>
      refine forall_congr' fun s => forall_congr' fun c => forall_congr' fun hc => ?_
      have hs : s₀ ≠ s := by
        rintro rfl
        rw [hclient] at hc
        cases hc
      simp [hs]
    | some c₀ =>
      constructor
      · intro hleft s c hc huser
        by_contra hs
        have hne : s ≠ s₀ := fun heq => hs (congrArg some heq.symm)
        exact hleft s c ((lookup_erase_ne hne).trans hc) huser
      · intro hall s c hc huser
        have hne : s ≠ s₀ := by
          rintro rfl
          rw [lookup_erase] at hc
          cases hc
        rw [lookup_erase_ne hne] at hc
        exact hne (Option.some.inj (hall s c hc huser)).symm

/-- A client is still registered after a kick, or closed by it. -/
theorem Kicked.kept_or_closed {change : Registry × List Client} (hkick : r.Kicked change)
    (hc : r.clients.lookup s = some c) : change.1.clients.lookup s = some c ∨ c ∈ change.2 := by
  cases hkick with
  | nothing => exact .inl hc
  | client sessionId userId client hclient _ =>
    by_cases hs : s = sessionId
    · subst hs
      rw [hclient] at hc
      cases hc
      exact .inr (List.mem_singleton_self _)
    · exact .inl ((lookup_erase_ne hs).trans hc)

end Registry

end Stardust.HttpServer.Clients
