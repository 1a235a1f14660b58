import Stardust.Core.System
import Stardust.HttpServer.ClientRegistry

/-!
# The client manager

The loop of `Start` receives from three unbuffered channels and from the closed `stopChan`; kicks
and `Stop` run in the goroutines of their callers. A step is one section under the lock, one
choice of a `select`, or one call of a client. A reader holds the lock for the whole of its
iteration, so no section that writes takes place meanwhile.
-/

namespace Stardust.HttpServer.Clients

/-- Where a run of `shutdownClients` stands. -/
inductive Shutdown where
  /-- Before the lock. -/
  | entering
  /-- The clients are removed; these are still to be closed. -/
  | closing (rest : List Client)
  deriving DecidableEq

/-- Where the goroutine of `Start` stands. -/
inductive Loop where
  /-- Not started yet. -/
  | idle
  | selecting
  /-- A client was received from `register`. -/
  | registering (client : Client)
  /-- A client was received from `unregister`. -/
  | unregistering (client : Client)
  /-- A message was received from `broadcast`. -/
  | broadcasting (message : List UInt8)
  /-- The message goes to the rest of the clients, under the read lock. -/
  | sending (message : List UInt8) (rest : List Client)
  /-- `stopChan` was received. -/
  | shutting (s : Shutdown)
  | exited
  deriving DecidableEq

/-- A method that is called on the manager. -/
inductive Method where
  | registerClient (client : Client)
  | unregisterClient (client : Client)
  | broadcastMessage (message : List UInt8)
  | clientKeepLive
  | kickClientByUserId (userId : String)
  | kickClientBySessionId (sessionId : String)
  | stop
  deriving DecidableEq

/-- Where the call of a method stands. -/
inductive Call where
  /-- Before its first section. -/
  | entered (method : Method)
  /-- A keepalive goes to the rest of the clients, under the read lock. -/
  | sending (rest : List Client)
  /-- `Stop` is past its `Once`. -/
  | shutting (s : Shutdown)
  | returned
  deriving DecidableEq

/-- The manager with its loop and the calls of its methods. -/
structure Manager where
  registry : Registry
  /-- Whether `stopChan` is closed. -/
  stopped : Bool
  loop : Loop
  calls : List Call
  /-- The clients that were closed. -/
  closed : List Client
  /-- The clients that the loop received from `register`. -/
  accepted : List Client

/-- A step, by the loop or by the call with a number. -/
inductive Label where
  /-- The loop starts. -/
  | start
  /-- A goroutine calls a method. -/
  | call (method : Method)
  /-- A sender finds `stopChan` closed. -/
  | ignore (i : Nat)
  /-- The loop receives what the call sends. -/
  | receive (i : Nat)
  /-- The loop registers or unregisters the client that it received. -/
  | handle
  /-- The loop finds `stopChan` closed. -/
  | quit
  /-- The section of a kick. -/
  | kick (i : Nat)
  /-- The `Once` of a call of `Stop`. -/
  | once (i : Nat)
  /-- The loop, or a call, starts to send to the clients in some order. -/
  | range (who : Option Nat) (order : List ClientEntry)
  /-- It sends to the next client, or lets go of the lock. -/
  | send (who : Option Nat)
  /-- The loop, or a call, removes the clients in some order. -/
  | collect (who : Option Nat) (order : List ClientEntry)
  /-- It closes the next client, or returns. -/
  | close (who : Option Nat)
  deriving DecidableEq

namespace Manager

/-- A manager as it is made. -/
def new : Manager := ⟨Registry.empty, false, .idle, [], [], []⟩

/-- Where a call goes on. -/
def setCall (m : Manager) (i : Nat) (c : Call) : Manager := { m with calls := m.calls.set i c }

/-- Whether someone holds the read lock. -/
def reading (m : Manager) : Bool :=
  (match m.loop with
    | .sending _ _ => true
    | _ => false) ||
  m.calls.any fun
    | .sending _ => true
    | _ => false

/-- Replace the maps, and close some clients. -/
def update (m : Manager) (change : Registry × List Client) : Manager :=
  { m with registry := change.1, closed := change.2 ++ m.closed }

/-- The run of `shutdownClients` in the loop or in a call. -/
def shutdown (m : Manager) : Option Nat → Option Shutdown
  | none =>
    match m.loop with
    | .shutting s => some s
    | _ => none
  | some i =>
    match m.calls[i]? with
    | some (.shutting s) => some s
    | _ => none

/-- Go on with `shutdownClients`, or return from it. -/
def setShutdown (m : Manager) : Option Nat → Option Shutdown → Manager
  | none, some s => { m with loop := .shutting s }
  | none, none => { m with loop := .exited }
  | some i, some s => m.setCall i (.shutting s)
  | some i, none => m.setCall i .returned

/-- Start to send to the clients, under the read lock. -/
def startRange (m : Manager) (rest : List Client) : Option Nat → Option Manager
  | none =>
    match m.loop with
    | .broadcasting message => some { m with loop := .sending message rest }
    | _ => none
  | some i =>
    match m.calls[i]? with
    | some (.entered .clientKeepLive) => some (m.setCall i (.sending rest))
    | _ => none

/-- Send to the next client, or let go of the lock. -/
def sendNext (m : Manager) : Option Nat → Option Manager
  | none =>
    match m.loop with
    | .sending message (_ :: rest) => some { m with loop := .sending message rest }
    | .sending _ [] => some { m with loop := .selecting }
    | _ => none
  | some i =>
    match m.calls[i]? with
    | some (.sending (_ :: rest)) => some (m.setCall i (.sending rest))
    | some (.sending []) => some (m.setCall i .returned)
    | _ => none

/-- The loop receives from a waiting call. -/
def receive (m : Manager) (i : Nat) : Option Manager :=
  match m.calls[i]? with
  | some (.entered (.registerClient client)) =>
    some { m.setCall i .returned with
      loop := .registering client, accepted := client :: m.accepted }
  | some (.entered (.unregisterClient client)) =>
    some { m.setCall i .returned with loop := .unregistering client }
  | some (.entered (.broadcastMessage message)) =>
    some { m.setCall i .returned with loop := .broadcasting message }
  | _ => none

/-- The section of the loop for the client that it received. -/
def handle (m : Manager) : Option Manager :=
  match m.loop with
  | .registering client =>
    some { m with registry := m.registry.register client, loop := .selecting }
  | .unregistering client =>
    some { m.update (m.registry.unregister client) with loop := .selecting }
  | _ => none

/-- The section of a kick. -/
def kick (m : Manager) (i : Nat) : Option Manager :=
  match m.calls[i]? with
  | some (.entered (.kickClientByUserId userId)) =>
    some ((m.update (m.registry.kickClientByUserId userId)).setCall i .returned)
  | some (.entered (.kickClientBySessionId sessionId)) =>
    some ((m.update (m.registry.kickClientBySessionId sessionId)).setCall i .returned)
  | _ => none

/-- Remove all clients, in the order of the iteration. -/
def collect (m : Manager) (who : Option Nat) (order : List ClientEntry) : Option Manager :=
  if m.shutdown who = some .entering ∧ order.isPerm m.registry.clients.entries then
    some ({ m with registry := m.registry.shutdownClients order }.setShutdown who
      (some (.closing (order.map Sigma.snd))))
  else none

/-- Close the next client, or return. -/
def closeNext (m : Manager) (who : Option Nat) : Option Manager :=
  match m.shutdown who with
  | some (.closing (client :: rest)) =>
    some ({ m with closed := client :: m.closed }.setShutdown who (some (.closing rest)))
  | some (.closing []) => some (m.setShutdown who none)
  | _ => none

/-- The sender's `select` finds `stopChan` closed. -/
def ignore (m : Manager) (i : Nat) : Option Manager :=
  match m.calls[i]? with
  | some (.entered (.registerClient _)) => some (m.setCall i .returned)
  | some (.entered (.unregisterClient _)) => some (m.setCall i .returned)
  | some (.entered (.broadcastMessage _)) => some (m.setCall i .returned)
  | _ => none

/-- One step of the manager. -/
def step (m : Manager) : Label → Option Manager
  | .start => if m.loop = .idle then some { m with loop := .selecting } else none
  | .call method => some { m with calls := m.calls ++ [.entered method] }
  | .ignore i => if m.stopped then m.ignore i else none
  | .receive i => if m.loop = .selecting then m.receive i else none
  | .handle => if m.reading then none else m.handle
  | .quit =>
    if m.loop = .selecting ∧ m.stopped then some { m with loop := .shutting .entering } else none
  | .kick i => if m.reading then none else m.kick i
  | .once i =>
    if m.calls[i]? = some (.entered .stop) then
      some { m.setCall i (.shutting .entering) with stopped := true }
    else none
  | .range who order =>
    if order.isPerm m.registry.clients.entries then m.startRange (order.map Sigma.snd) who else none
  | .send who => m.sendNext who
  | .collect who order => if m.reading then none else m.collect who order
  | .close who => m.closeNext who

end Manager

/-- The client manager from its construction on. -/
def managers : Core.System Manager Label where
  init m := m = Manager.new
  step := Manager.step

/-- The client that a method is called with. -/
def Method.client : Method → Option Client
  | .registerClient client => some client
  | .unregisterClient client => some client
  | _ => none

/-- The client that a call has still to send. -/
def Call.client : Call → Option Client
  | .entered method => method.client
  | _ => none

/-- The client that the loop has received and not yet worked on. -/
def Loop.client : Loop → Option Client
  | .registering client => some client
  | .unregistering client => some client
  | _ => none

/-- The client that a step brings in. -/
def Label.client : Label → Option Client
  | .call method => method.client
  | _ => none

/-- The loop has removed the clients and takes no more. -/
def Loop.drained : Loop → Bool
  | .shutting (.closing _) => true
  | .exited => true
  | _ => false

namespace Manager

/-- Some run of `shutdownClients` has still to close the client. -/
def Pending (m : Manager) (c : Client) : Prop :=
  ∃ who rest, m.shutdown who = some (.closing rest) ∧ c ∈ rest

/-- A step that leaves the maps and the clients in them alone. -/
structure Quiet (m : Manager) (l : Label) (m' : Manager) : Prop where
  registry : m'.registry = m.registry
  closed : m'.closed = m.closed
  /-- Nobody who has clients to close forgets them. -/
  pending : ∀ c, m.Pending c → m'.Pending c
  /-- A registration that was received stays with the loop. -/
  received : ∀ c, m.loop = .registering c → m'.loop = .registering c
  /-- A client that is accepted is with the loop. -/
  accepted : ∀ c ∈ m'.accepted, c ∈ m.accepted ∨ m'.loop = .registering c
  /-- The loop's client comes from a call. -/
  looped : ∀ c, m'.loop.client = some c →
    m.loop.client = some c ∨ ∃ call ∈ m.calls, call.client = some c
  /-- The client of a call comes with the call. -/
  called : ∀ call ∈ m'.calls, ∀ c, call.client = some c →
    (∃ call' ∈ m.calls, call'.client = some c) ∨ l.client = some c
  /-- The loop does not pass its shutdown. -/
  drained : m'.loop.drained = m.loop.drained

/-- What a step can do. -/
inductive Moves (m : Manager) (l : Label) (m' : Manager) : Prop
  | quiet (h : Quiet m l m') (hlabel : l ≠ .handle)
  | register (client : Client) (hloop : m.loop = .registering client) (hlabel : l = .handle)
      (h : m' = { m with registry := m.registry.register client, loop := .selecting })
  | unregister (client : Client) (hloop : m.loop = .unregistering client) (hlabel : l = .handle)
      (h : m' = { m.update (m.registry.unregister client) with loop := .selecting })
  | kick (i : Nat) (method : Method) (change : Registry × List Client)
      (hcall : m.calls[i]? = some (.entered method)) (hchange : m.registry.Kicked change)
      (hlabel : l ≠ .handle) (h : m' = (m.update change).setCall i .returned)
  | collect (who : Option Nat) (order : List ClientEntry) (hwho : m.shutdown who = some .entering)
      (hall : order.Perm m.registry.clients.entries) (hlabel : l ≠ .handle)
      (h : m' = { m with registry := m.registry.shutdownClients order }.setShutdown who
        (some (.closing (order.map Sigma.snd))))
  | close (who : Option Nat) (client : Client) (rest : List Client)
      (hwho : m.shutdown who = some (.closing (client :: rest))) (hlabel : l ≠ .handle)
      (h : m' = { m with closed := client :: m.closed }.setShutdown who (some (.closing rest)))

variable {m m' : Manager} {i : Nat} {who : Option Nat} {l : Label} {order : List ClientEntry}
  {rest : List Client} {c : Client} {call call' : Call} {loop : Loop}

/-- A call that is not shutting down has nothing to close. -/
theorem Pending.setCall (h : m.Pending c) (hcall : m.calls[i]? = some call)
    (hshutting : ∀ s, call ≠ .shutting s) : (m.setCall i call').Pending c := by
  obtain ⟨who, rest, hwho, hmem⟩ := h
  refine ⟨who, rest, ?_, hmem⟩
  cases who with
  | none => exact hwho
  | some j =>
    simp only [shutdown] at hwho ⊢
    have hne : i ≠ j := by
      rintro rfl
      rw [hcall] at hwho
      cases call <;> simp_all
    rw [Manager.setCall, List.getElem?_set_ne hne]
    exact hwho

/-- A loop that is not shutting down has nothing to close. -/
theorem Pending.setLoop (h : m.Pending c) (hshutting : ∀ s, m.loop ≠ .shutting s) :
    ({ m with loop := loop } : Manager).Pending c := by
  obtain ⟨who, rest, hwho, hmem⟩ := h
  refine ⟨who, rest, ?_, hmem⟩
  cases who with
  | none =>
    simp only [shutdown] at hwho
    cases hwho
  | some j => exact hwho

/-- Only a client with its call is given to the loop. -/
theorem mem_setCall_client (hcalled : call' ∈ (m.setCall i call).calls)
    (hclient : call.client = none) (hc : call'.client = some c) :
    ∃ call'' ∈ m.calls, call''.client = some c := by
  rcases List.mem_or_eq_of_mem_set hcalled with hmem | rfl
  · exact ⟨call', hmem, hc⟩
  · rw [hclient] at hc
    cases hc

/-- A call goes on without the maps. -/
theorem quiet_setCall (hcall : m.calls[i]? = some call) (hshutting : ∀ s, call ≠ .shutting s)
    (hclient : call'.client = none) : Quiet m l (m.setCall i call') where
  registry := rfl
  closed := rfl
  pending _ h := h.setCall hcall hshutting
  received _ h := h
  accepted _ h := .inl h
  looped _ h := .inl h
  called _ hmem _ hc := .inl (mem_setCall_client hmem hclient hc)
  drained := rfl

/-- The loop goes on without the maps, and without a client. -/
theorem quiet_setLoop (hshutting : ∀ s, m.loop ≠ .shutting s)
    (hreceived : ∀ c, m.loop ≠ .registering c) (hclient : loop.client = none)
    (hdrained : loop.drained = m.loop.drained) : Quiet m l { m with loop := loop } where
  registry := rfl
  closed := rfl
  pending _ h := h.setLoop hshutting
  received c h := absurd h (hreceived c)
  accepted _ h := .inl h
  looped c h := by
    rw [hclient] at h
    cases h
  called call hmem _ hc := .inl ⟨call, hmem, hc⟩
  drained := hdrained

/-- The loop receives what a call sends. -/
theorem quiet_receive (hloop : m.loop = .selecting) (h : m.receive i = some m') : Quiet m l m' := by
  have hpending : ∀ {call : Call} {loop : Loop} {accepted : List Client} (c : Client),
      m.calls[i]? = some call → (∀ s, call ≠ .shutting s) → m.Pending c →
      ({ m.setCall i .returned with loop := loop, accepted := accepted } : Manager).Pending c := by
    intro call loop accepted c hcall hshutting hc
    exact (hc.setCall hcall hshutting).setLoop (by rw [setCall, hloop]; nofun)
  unfold receive at h
  split at h
  · rename_i client hcall
    cases h
    refine ⟨rfl, rfl, fun c hc => hpending c hcall nofun hc, ?_, ?_, ?_, ?_, by rw [hloop]; rfl⟩
    · rw [hloop]
      nofun
    · intro c hc
      rcases List.mem_cons.mp hc with rfl | hc
      · exact .inr rfl
      · exact .inl hc
    · intro c hc
      exact .inr ⟨_, List.mem_of_getElem? hcall, hc⟩
    · intro call hmem c hc
      exact .inl (mem_setCall_client hmem rfl hc)
  · rename_i client hcall
    cases h
    refine ⟨rfl, rfl, fun c hc => hpending c hcall nofun hc, ?_, fun c hc => .inl hc, ?_, ?_,
      by rw [hloop]; rfl⟩
    · rw [hloop]
      nofun
    · intro c hc
      exact .inr ⟨_, List.mem_of_getElem? hcall, hc⟩
    · intro call hmem c hc
      exact .inl (mem_setCall_client hmem rfl hc)
  · rename_i message hcall
    cases h
    refine ⟨rfl, rfl, fun c hc => hpending c hcall nofun hc, ?_, fun c hc => .inl hc, nofun, ?_,
      by rw [hloop]; rfl⟩
    · rw [hloop]
      nofun
    · intro call hmem c hc
      exact .inl (mem_setCall_client hmem rfl hc)
  · cases h

/-- A sender returns. -/
theorem quiet_ignore (h : m.ignore i = some m') : Quiet m l m' := by
  unfold ignore at h
  split at h
  · rename_i hcall
    cases h
    exact quiet_setCall hcall nofun rfl
  · rename_i hcall
    cases h
    exact quiet_setCall hcall nofun rfl
  · rename_i hcall
    cases h
    exact quiet_setCall hcall nofun rfl
  · cases h

private theorem quiet_startRange (h : m.startRange rest who = some m') : Quiet m l m' := by
  unfold startRange at h
  split at h
  · split at h
    · rename_i message hloop
      cases h
      exact quiet_setLoop (by rw [hloop]; nofun) (by rw [hloop]; nofun) rfl (by rw [hloop]; rfl)
    · cases h
  · split at h
    · rename_i hcall
      cases h
      exact quiet_setCall hcall nofun rfl
    · cases h

private theorem quiet_sendNext (h : m.sendNext who = some m') : Quiet m l m' := by
  unfold sendNext at h
  split at h
  · split at h
    · rename_i hloop
      cases h
      exact quiet_setLoop (by rw [hloop]; nofun) (by rw [hloop]; nofun) rfl (by rw [hloop]; rfl)
    · rename_i hloop
      cases h
      exact quiet_setLoop (by rw [hloop]; nofun) (by rw [hloop]; nofun) rfl (by rw [hloop]; rfl)
    · cases h
  · split at h
    · rename_i hcall
      cases h
      exact quiet_setCall hcall nofun rfl
    · rename_i hcall
      cases h
      exact quiet_setCall hcall nofun rfl
    · cases h

/-- A new call changes nothing else. -/
theorem quiet_call (m : Manager) (method : Method) :
    Quiet m (.call method) { m with calls := m.calls ++ [.entered method] } where
  registry := rfl
  closed := rfl
  pending := by
    rintro c ⟨who, rest, hwho, hmem⟩
    refine ⟨who, rest, ?_, hmem⟩
    cases who with
    | none => exact hwho
    | some j =>
      have hj : j < m.calls.length := by
        by_contra hj
        simp only [shutdown, List.getElem?_eq_none (not_lt.mp hj)] at hwho
        cases hwho
      simp only [shutdown, List.getElem?_append_left hj] at hwho ⊢
      exact hwho
  received _ h := h
  accepted _ h := .inl h
  looped _ h := .inl h
  called call hmem c hc := by
    rcases List.mem_append.mp hmem with hmem | hmem
    · exact .inl ⟨call, hmem, hc⟩
    · rw [List.mem_singleton.mp hmem] at hc
      exact .inr hc
  drained := rfl

/-- The shutdown of the loop or of a call, after it went on. -/
theorem shutdown_setShutdown {s : Shutdown} (hwho : m.shutdown who = some s) (s' : Option Shutdown)
    (who' : Option Nat) :
    (m.setShutdown who s').shutdown who' = if who' = who then s' else m.shutdown who' := by
  cases who with
  | none =>
    cases who' with
    | none => cases s' <;> rfl
    | some j => cases s' <;> rfl
  | some i =>
    cases who' with
    | none => cases s' <;> rfl
    | some j =>
      have hi : i < m.calls.length := by
        by_contra hi
        simp only [shutdown, List.getElem?_eq_none (not_lt.mp hi)] at hwho
        cases hwho
      by_cases hij : i = j
      · subst hij
        cases s' <;> simp [setShutdown, setCall, shutdown, hi]
      · have hji : ¬ (some j : Option Nat) = some i := fun h => hij (Option.some.inj h).symm
        rw [if_neg hji]
        cases s' <;> simp [setShutdown, setCall, shutdown, List.getElem?_set_ne hij]

@[simp]
theorem setShutdown_registry (m : Manager) (who : Option Nat) (s : Option Shutdown) :
    (m.setShutdown who s).registry = m.registry := by
  cases who <;> cases s <;> rfl

@[simp]
theorem setShutdown_closed (m : Manager) (who : Option Nat) (s : Option Shutdown) :
    (m.setShutdown who s).closed = m.closed := by
  cases who <;> cases s <;> rfl

@[simp]
theorem setShutdown_accepted (m : Manager) (who : Option Nat) (s : Option Shutdown) :
    (m.setShutdown who s).accepted = m.accepted := by
  cases who <;> cases s <;> rfl

/-- The shutdown of the loop is where the loop is. -/
theorem loop_of_shutdown {s : Shutdown} (hwho : m.shutdown none = some s) :
    m.loop = .shutting s := by
  simp only [shutdown] at hwho
  split at hwho
  · rename_i hloop
    cases hwho
    exact hloop
  · cases hwho

/-- The shutdown of a call is where the call is. -/
theorem call_of_shutdown {s : Shutdown} (hwho : m.shutdown (some i) = some s) :
    m.calls[i]? = some (.shutting s) := by
  simp only [shutdown] at hwho
  split at hwho
  · rename_i hcall
    cases hwho
    exact hcall
  · cases hwho

/-- A shutdown has no client to register. -/
theorem setShutdown_received {s : Shutdown} (hwho : m.shutdown who = some s) (s' : Option Shutdown)
    (hloop : m.loop = .registering c) : (m.setShutdown who s').loop = .registering c := by
  cases who with
  | none =>
    rw [loop_of_shutdown hwho] at hloop
    cases hloop
  | some i => cases s' <;> exact hloop

/-- A shutdown gives the loop no client. -/
theorem setShutdown_looped (s : Option Shutdown)
    (hc : (m.setShutdown who s).loop.client = some c) : m.loop.client = some c := by
  cases who with
  | none => cases s <;> cases hc
  | some i => cases s <;> exact hc

/-- A shutdown gives no call a client. -/
theorem setShutdown_called (s : Option Shutdown) (hmem : call ∈ (m.setShutdown who s).calls)
    (hc : call.client = some c) : ∃ call' ∈ m.calls, call'.client = some c := by
  cases who with
  | none => cases s <;> exact ⟨call, hmem, hc⟩
  | some i => cases s <;> exact mem_setCall_client hmem rfl hc

/-- A shutdown that has closed all its clients returns. -/
theorem quiet_return (hwho : m.shutdown who = some (.closing [])) :
    Quiet m l (m.setShutdown who none) where
  registry := setShutdown_registry _ _ _
  closed := setShutdown_closed _ _ _
  pending := by
    rintro c ⟨who', rest, hwho', hmem⟩
    refine ⟨who', rest, ?_, hmem⟩
    rw [shutdown_setShutdown hwho]
    have hne : who' ≠ who := by
      rintro rfl
      rw [hwho] at hwho'
      cases hwho'
      cases hmem
    rw [if_neg hne]
    exact hwho'
  received _ hloop := setShutdown_received hwho none hloop
  accepted c hc := by
    rw [setShutdown_accepted] at hc
    exact .inl hc
  looped _ hc := .inl (setShutdown_looped none hc)
  called _ hmem _ hc := .inl (setShutdown_called none hmem hc)
  drained := by
    cases who with
    | none =>
      rw [loop_of_shutdown hwho]
      rfl
    | some i => rfl

/-- Every step is one of the moves. -/
theorem step_moves (h : m.step l = some m') : Moves m l m' := by
  cases l with
  | start =>
    obtain ⟨hloop, ⟨⟩⟩ := Option.ite_none_right_eq_some.mp h
    exact .quiet (quiet_setLoop (by rw [hloop]; nofun) (by rw [hloop]; nofun) rfl
      (by rw [hloop]; rfl)) nofun
  | call method =>
    cases h
    exact .quiet (quiet_call m method) nofun
  | ignore i => exact .quiet (quiet_ignore (Option.ite_none_right_eq_some.mp h).2) nofun
  | receive i =>
    obtain ⟨hloop, h⟩ := Option.ite_none_right_eq_some.mp h
    exact .quiet (quiet_receive hloop h) nofun
  | handle =>
    obtain ⟨-, h⟩ := Option.ite_none_left_eq_some.mp h
    unfold handle at h
    split at h
    · rename_i client hloop
      cases h
      exact .register client hloop rfl rfl
    · rename_i client hloop
      cases h
      exact .unregister client hloop rfl rfl
    · cases h
  | quit =>
    obtain ⟨⟨hloop, -⟩, ⟨⟩⟩ := Option.ite_none_right_eq_some.mp h
    exact .quiet (quiet_setLoop (by rw [hloop]; nofun) (by rw [hloop]; nofun) rfl
      (by rw [hloop]; rfl)) nofun
  | kick i =>
    obtain ⟨-, h⟩ := Option.ite_none_left_eq_some.mp h
    unfold kick at h
    split at h
    · rename_i userId hcall
      cases h
      exact .kick i _ _ hcall (m.registry.kickClientByUserId_kicked userId) nofun rfl
    · rename_i sessionId hcall
      cases h
      exact .kick i _ _ hcall (m.registry.kickClientBySessionId_kicked sessionId) nofun rfl
    · cases h
  | once i =>
    obtain ⟨hcall, ⟨⟩⟩ := Option.ite_none_right_eq_some.mp h
    have hquiet : Quiet m (.once i) (m.setCall i (.shutting .entering)) :=
      quiet_setCall hcall nofun rfl
    exact .quiet ⟨hquiet.registry, hquiet.closed, hquiet.pending, hquiet.received, hquiet.accepted,
      hquiet.looped, hquiet.called, hquiet.drained⟩ nofun
  | range who order =>
    exact .quiet (quiet_startRange (Option.ite_none_right_eq_some.mp h).2) nofun
  | send who => exact .quiet (quiet_sendNext h) nofun
  | collect who order =>
    obtain ⟨-, h⟩ := Option.ite_none_left_eq_some.mp h
    obtain ⟨⟨hwho, hperm⟩, ⟨⟩⟩ := Option.ite_none_right_eq_some.mp h
    exact .collect who order hwho (List.isPerm_iff.mp hperm) nofun rfl
  | close who =>
    change m.closeNext who = some m' at h
    unfold closeNext at h
    split at h
    · rename_i client rest hwho
      cases h
      exact .close who client rest hwho nofun rfl
    · rename_i hwho
      cases h
      exact .quiet (quiet_return hwho) nofun
    · cases h

end Manager

end Stardust.HttpServer.Clients
