import Stardust.HttpServer.ClientRemoval

/-!
# The order of broadcasts

Each client has a buffer between those who send to it and the goroutine that writes to its
connection. `Send` looks whether the client is closed, and then puts its message in the buffer or
drops it if the buffer is full; anything may happen in between. The loop of the manager sends the
broadcasts, one at a time and to each client once, while keepalives and answers of handlers are sent
beside it. A broadcast is numbered as the loop receives it.
-/

namespace Stardust.HttpServer.Clients

open Function

/-- A message in a buffer, with its number if it is a broadcast. -/
structure Packet where
  number : Option Nat
  message : List UInt8
  deriving DecidableEq

/-- The manager with the buffers of its clients. -/
structure Hub where
  manager : Manager
  /-- The broadcasts that the loop has received, in order. -/
  received : List (List UInt8)
  /-- The loop, or the calls, whose `Send` is past its look at the next client. -/
  passed : List (Option Nat)
  /-- The other calls of `Send` that are past their look at the client. -/
  sends : List (Client × List UInt8)
  buffer : Client → List Packet
  /-- What each client's `SendMessage` has taken out of the buffer, in order. -/
  taken : Client → List Packet
  /-- The clients that were closed by others than the manager. -/
  shut : List Client

/-- A step of the manager, or of those who use the buffers. -/
inductive Signal where
  /-- A step of the manager that is not a `Send`. -/
  | manage (l : Label)
  /-- The `Send` of the loop, or of a keepalive, looks whether the next client is closed. -/
  | check (who : Option Nat)
  /-- It puts the message in the client's buffer, or drops it. -/
  | put (who : Option Nat)
  /-- The iteration is over. -/
  | release (who : Option Nat)
  /-- Another `Send` looks whether its client is closed. -/
  | enter (client : Client) (message : List UInt8)
  /-- It puts the message in the client's buffer, or drops it. -/
  | leave (i : Nat)
  /-- The client's `SendMessage` takes a message. -/
  | take (client : Client)
  /-- The client is closed. -/
  | shut (client : Client)

/-- The capacity of a client's buffer. -/
def sendCapacity : Nat := 1024

/-- The bytes of `keepalive`. -/
def keepalive : List UInt8 := [107, 101, 101, 112, 97, 108, 105, 118, 101]

/-- The client that the loop, or a keepalive, sends to next, and the message. -/
def Manager.next (m : Manager) : Option Nat → Option (Client × List UInt8)
  | none =>
    match m.loop with
    | .sending message (client :: _) => some (client, message)
    | _ => none
  | some i =>
    match m.calls[i]? with
    | some (.sending (client :: _)) => some (client, keepalive)
    | _ => none

/-- The broadcast that the loop receives in a step. -/
def Manager.receives (m : Manager) : Label → Option (List UInt8)
  | .receive i =>
    match m.calls[i]? with
    | some (.entered (.broadcastMessage message)) => some message
    | _ => none
  | _ => none

/-- The step is a `Send` of the manager. -/
def Label.isSend : Label → Bool
  | .send _ => true
  | _ => false

namespace Hub

/-- A manager without clients. -/
def new : Hub := ⟨Manager.new, [], [], [], fun _ => [], fun _ => [], []⟩

/-- The client is closed, by the manager or by others. -/
def closed (h : Hub) (client : Client) : Bool :=
  client ∈ h.manager.closed ∨ client ∈ h.shut

/-- Put a packet in the buffer of a client, or drop it if there is no room. -/
def push (h : Hub) (client : Client) (packet : Packet) : Hub :=
  if (h.buffer client).length < sendCapacity then
    { h with buffer := update h.buffer client (h.buffer client ++ [packet]) }
  else h

/-- The number of what is sent: the loop sends the last broadcast that it has received. -/
def number (h : Hub) : Option Nat → Option Nat
  | none => some (h.received.length - 1)
  | some _ => none

/-- One step of the hub. -/
def step (h : Hub) : Signal → Option Hub
  | .manage l =>
    if l.isSend then none
    else (h.manager.step l).map fun m =>
      { h with manager := m, received := h.received ++ (h.manager.receives l).toList }
  | .check who =>
    if who ∈ h.passed then none
    else (h.manager.next who).bind fun (client, _) =>
      if h.closed client then (h.manager.step (.send who)).map fun m => { h with manager := m }
      else some { h with passed := who :: h.passed }
  | .put who =>
    if who ∈ h.passed then
      (h.manager.next who).bind fun (client, message) =>
        (h.manager.step (.send who)).map fun m =>
          { h.push client ⟨h.number who, message⟩ with
            manager := m, passed := h.passed.erase who }
    else none
  | .release who =>
    if h.manager.next who = none then
      (h.manager.step (.send who)).map fun m => { h with manager := m }
    else none
  | .enter client message =>
    if h.closed client then some h else some { h with sends := (client, message) :: h.sends }
  | .leave i =>
    (h.sends[i]?).map fun (client, message) =>
      { h.push client ⟨none, message⟩ with sends := h.sends.eraseIdx i }
  | .take client =>
    match h.buffer client with
    | [] => none
    | packet :: rest =>
      some { h with
        buffer := update h.buffer client rest
        taken := update h.taken client (h.taken client ++ [packet]) }
  | .shut client => some { h with shut := client :: h.shut }

/-- The packets that were put in a client's buffer, in order. -/
def puts (h : Hub) (client : Client) : List Packet := h.taken client ++ h.buffer client

/-- The numbers of the broadcasts that were put in a client's buffer, in order. -/
def numbers (h : Hub) (client : Client) : List Nat := (h.puts client).filterMap Packet.number

end Hub

/-- The manager and its clients from the construction on. -/
def hubs : Core.System Hub Signal where
  init h := h = Hub.new
  step := Hub.step

/-! ### What the loop does -/

/-- The client has still to be sent the last broadcast. -/
def Loop.Awaits (c : Client) : Loop → Prop
  | .broadcasting _ => True
  | .sending _ rest => c ∈ rest
  | _ => False

/-- The broadcast that the loop is busy with. -/
def Loop.message : Loop → Option (List UInt8)
  | .broadcasting message => some message
  | .sending message _ => some message
  | _ => none

/-- What a step can do to the broadcast of the loop. -/
inductive LoopMoves (m : Manager) (l : Label) (m' : Manager) : Prop
  /-- The loop stays where it is. -/
  | stays (hloop : m'.loop = m.loop) (hreceives : m.receives l = none)
  /-- The loop has no broadcast. -/
  | other (hloop : m'.loop.message = none) (hreceives : m.receives l = none)
  | receives (message : List UInt8) (hloop : m'.loop = .broadcasting message)
      (hreceives : m.receives l = some message)
  /-- The loop starts to send to the clients. -/
  | range (message : List UInt8) (order : List ClientEntry) (hloop : m.loop = .broadcasting message)
      (hloop' : m'.loop = .sending message (order.map Sigma.snd))
      (horder : order.Perm m.registry.clients.entries) (hreceives : m.receives l = none)
  /-- The loop goes on to the next client. -/
  | send (message : List UInt8) (client : Client) (rest : List Client)
      (hloop : m.loop = .sending message (client :: rest))
      (hloop' : m'.loop = .sending message rest) (hlabel : l = .send none)

namespace Manager

variable {m m' : Manager} {l : Label} {i : Nat} {who : Option Nat}

private theorem loop_receive (h : m.receive i = some m') : LoopMoves m (.receive i) m' := by
  unfold receive at h
  split at h
  · rename_i client hcall
    cases h
    exact .other rfl (by simp [receives, hcall])
  · rename_i client hcall
    cases h
    exact .other rfl (by simp [receives, hcall])
  · rename_i message hcall
    cases h
    exact .receives message rfl (by simp [receives, hcall])
  · cases h

private theorem loop_startRange {order : List ClientEntry}
    (horder : order.Perm m.registry.clients.entries)
    (h : m.startRange (order.map Sigma.snd) who = some m') : LoopMoves m (.range who order) m' := by
  unfold startRange at h
  split at h
  · split at h
    · rename_i message hloop
      cases h
      exact .range message order hloop rfl horder rfl
    · cases h
  · split at h
    · cases h
      exact .stays rfl rfl
    · cases h

private theorem loop_sendNext (h : m.sendNext who = some m') : LoopMoves m (.send who) m' := by
  unfold sendNext at h
  split at h
  · split at h
    · rename_i message client rest hloop
      cases h
      exact .send message client rest hloop rfl rfl
    · cases h
      exact .other rfl rfl
    · cases h
  · split at h
    · cases h
      exact .stays rfl rfl
    · cases h
      exact .stays rfl rfl
    · cases h

/-- The loop or a call that shuts down has no broadcast. -/
theorem loop_setShutdown {s : Option Shutdown} (hloop : m'.loop = m.loop)
    (hreceives : m.receives l = none) : LoopMoves m l (m'.setShutdown who s) := by
  cases who with
  | none => cases s <;> exact .other rfl hreceives
  | some i => cases s <;> exact .stays hloop hreceives

/-- Every step does one of these to the broadcast of the loop. -/
theorem step_loop (h : m.step l = some m') : LoopMoves m l m' := by
  cases l with
  | start =>
    obtain ⟨-, ⟨⟩⟩ := Option.ite_none_right_eq_some.mp h
    exact .other rfl rfl
  | call method =>
    cases h
    exact .stays rfl rfl
  | ignore i =>
    obtain ⟨-, h⟩ := Option.ite_none_right_eq_some.mp h
    unfold ignore at h
    split at h <;> cases h <;> exact .stays rfl rfl
  | receive i =>
    exact loop_receive (Option.ite_none_right_eq_some.mp h).2
  | handle =>
    obtain ⟨-, h⟩ := Option.ite_none_left_eq_some.mp h
    unfold handle at h
    split at h <;> cases h <;> exact .other rfl rfl
  | quit =>
    obtain ⟨-, ⟨⟩⟩ := Option.ite_none_right_eq_some.mp h
    exact .other rfl rfl
  | kick i =>
    obtain ⟨-, h⟩ := Option.ite_none_left_eq_some.mp h
    unfold kick at h
    split at h <;> cases h <;> exact .stays rfl rfl
  | once i =>
    obtain ⟨-, ⟨⟩⟩ := Option.ite_none_right_eq_some.mp h
    exact .stays rfl rfl
  | range who order =>
    obtain ⟨horder, h⟩ := Option.ite_none_right_eq_some.mp h
    exact loop_startRange (List.isPerm_iff.mp horder) h
  | send who => exact loop_sendNext h
  | collect who order =>
    obtain ⟨-, h⟩ := Option.ite_none_left_eq_some.mp h
    obtain ⟨-, ⟨⟩⟩ := Option.ite_none_right_eq_some.mp h
    exact loop_setShutdown rfl rfl
  | close who =>
    change m.closeNext who = some m' at h
    unfold closeNext at h
    split at h
    · cases h
      exact loop_setShutdown rfl rfl
    · cases h
      exact loop_setShutdown rfl rfl
    · cases h

/-- No client is twice in an iteration, as each is under its own session. -/
theorem nodup_order (hkeyed : m.registry.Keyed fun _ => True) {order : List ClientEntry}
    (horder : order.Perm m.registry.clients.entries) : (order.map Sigma.snd).Nodup := by
  have hkeys : (order.map Sigma.fst).Nodup := by
    rw [(horder.map Sigma.fst).nodup_iff]
    exact m.registry.clients.nodupKeys
  have hsessions : (order.map Sigma.snd).map Client.sessionId = order.map Sigma.fst := by
    rw [List.map_map]
    refine List.map_congr_left fun e he => ?_
    exact (hkeyed e.1 e.2 (AList.mem_lookup_iff.mpr (horder.mem_iff.mp he))).1
  rw [← hsessions] at hkeys
  exact hkeys.of_map

end Manager

/-! ### What is put in the buffers -/

namespace Hub

variable {h h' : Hub} {c client : Client} {packet : Packet} {l : Label}

/-- No broadcast is put in a buffer. -/
structure Unnumbered (h h' : Hub) : Prop where
  numbers : ∀ c, h'.numbers c = h.numbers c
  /-- A packet that is new has no number. -/
  packets : ∀ c, ∀ p ∈ h'.puts c, p ∈ h.puts c ∨ p.number = none

private theorem unnumbered_of_puts (hputs : h'.puts = h.puts) : Unnumbered h h' where
  numbers c := by rw [numbers, numbers, hputs]
  packets c p hp := .inl (hputs ▸ hp)

/-- A full buffer takes nothing. -/
theorem push_of_full (hfull : ¬ (h.buffer client).length < sendCapacity) :
    h.push client packet = h := if_neg hfull

private theorem push_puts_of_room (hroom : (h.buffer client).length < sendCapacity) :
    (h.push client packet).puts = update h.puts client (h.puts client ++ [packet]) := by
  funext c
  rw [push, if_pos hroom]
  by_cases hc : c = client
  · subst hc
    simp [puts]
  · simp [puts, hc]

/-- What is received and the manager do not depend on the buffers. -/
theorem push_received (h : Hub) (client : Client) (packet : Packet) :
    (h.push client packet).received = h.received := by
  unfold push
  split <;> rfl

private theorem push_manager (h : Hub) (client : Client) (packet : Packet) :
    (h.push client packet).manager = h.manager := by
  unfold push
  split <;> rfl

/-- A packet without a number leaves the numbers alone. -/
theorem unnumbered_push (hnumber : packet.number = none) : Unnumbered h (h.push client packet) := by
  by_cases hroom : (h.buffer client).length < sendCapacity
  · refine ⟨fun c => ?_, fun c p hp => ?_⟩
    · rw [numbers, numbers, push_puts_of_room hroom]
      by_cases hc : c = client
      · subst hc
        simp [hnumber]
      · rw [update_of_ne hc]
    · rw [push_puts_of_room hroom] at hp
      by_cases hc : c = client
      · subst hc
        rw [update_self] at hp
        rcases List.mem_append.mp hp with hp | hp
        · exact .inl hp
        · rw [List.mem_singleton.mp hp]
          exact .inr hnumber
      · rw [update_of_ne hc] at hp
        exact .inl hp
  · rw [push_of_full hroom]
    exact unnumbered_of_puts rfl

/-- What is taken out of a buffer was put in it. -/
theorem take_puts {rest : List Packet} (hbuffer : h.buffer client = packet :: rest) :
    puts { h with
      buffer := update h.buffer client rest
      taken := update h.taken client (h.taken client ++ [packet]) } = h.puts := by
  funext c
  by_cases hc : c = client
  · subst hc
    simp [puts, hbuffer]
  · simp [puts, hc]

/-- The broadcasts in every buffer are in the order in which the loop received them, and the last
one is not in the buffer of a client that has still to be sent it. -/
structure InOrder (h : Hub) : Prop where
  reachable : managers.Reachable h.manager
  increasing : ∀ c, (h.numbers c).Pairwise (· < ·)
  past : ∀ c, ∀ n ∈ h.numbers c, n < h.received.length
  awaited : ∀ c, h.manager.loop.Awaits c → ∀ n ∈ h.numbers c, n + 1 < h.received.length
  /-- The loop comes by no client twice. -/
  once : ∀ message rest, h.manager.loop = .sending message rest → rest.Nodup
  /-- The loop is busy with the last broadcast. -/
  current : ∀ message, h.manager.loop.message = some message →
    h.received.getLast? = some message
  /-- A number is that of the message. -/
  labelled : ∀ c, ∀ p ∈ h.puts c, ∀ n, p.number = some n → h.received[n]? = some p.message

private theorem inOrder_new : Hub.new.InOrder where
  reachable := ⟨Manager.new, [], rfl, rfl⟩
  increasing _ := List.Pairwise.nil
  past _ _ hn := absurd hn List.not_mem_nil
  awaited _ hc := hc.elim
  once := nofun
  current := nofun
  labelled _ _ hp := absurd hp List.not_mem_nil

/-- Steps beside the manager that put no broadcast in a buffer. -/
theorem InOrder.beside (hin : h.InOrder) (hun : Unnumbered h h') (hmanager : h'.manager = h.manager)
    (hreceived : h'.received = h.received) : h'.InOrder where
  reachable := hmanager ▸ hin.reachable
  increasing c := by
    rw [hun.numbers]
    exact hin.increasing c
  past c := by
    rw [hun.numbers, hreceived]
    exact hin.past c
  awaited c := by
    rw [hmanager, hun.numbers, hreceived]
    exact hin.awaited c
  once := by
    rw [hmanager]
    exact hin.once
  current := by
    rw [hmanager, hreceived]
    exact hin.current
  labelled c p hp n hn := by
    rw [hreceived]
    rcases hun.packets c p hp with hp | hnone
    · exact hin.labelled c p hp n hn
    · rw [hnone] at hn
      cases hn

/-- Who awaits the last broadcast after a step of the manager awaited it before, or it is new. -/
theorem awaits_of_step {m m' : Manager} (hmoves : LoopMoves m l m') (hc : m'.loop.Awaits c) :
    (m.loop.Awaits c ∧ m.receives l = none) ∨ ∃ message, m.receives l = some message := by
  cases hmoves with
  | stays hloop hreceives => exact .inl ⟨hloop ▸ hc, hreceives⟩
  | other hloop hreceives =>
    cases hloop' : m'.loop <;> rw [hloop'] at hloop hc <;> first | exact hc.elim | cases hloop
  | receives message hloop hreceives => exact .inr ⟨message, hreceives⟩
  | range message order hloop hloop' horder hreceives =>
    rw [hloop]
    exact .inl ⟨trivial, hreceives⟩
  | send message client rest hloop hloop' hlabel =>
    subst hlabel
    rw [hloop'] at hc
    rw [hloop]
    exact .inl ⟨List.mem_cons_of_mem _ hc, rfl⟩

/-- A step of the manager that puts no broadcast in a buffer. -/
theorem InOrder.manage (hin : h.InOrder) (hun : Unnumbered h h')
    (hstep : managers.step h.manager l = some h'.manager)
    (hreceived : h'.received = h.received ++ (h.manager.receives l).toList) : h'.InOrder := by
  have hmoves := Manager.step_loop hstep
  have hlength : h.received.length ≤ h'.received.length := by
    rw [hreceived, List.length_append]
    exact Nat.le_add_right _ _
  refine ⟨hin.reachable.step hstep, fun c => ?_, fun c n hn => ?_, fun c hc n hn => ?_,
    fun message rest hloop => ?_, fun message hmessage => ?_, fun c p hp n hn => ?_⟩
  · rw [hun.numbers]
    exact hin.increasing c
  · rw [hun.numbers] at hn
    exact Nat.lt_of_lt_of_le (hin.past c n hn) hlength
  · rw [hun.numbers] at hn
    rcases awaits_of_step hmoves hc with ⟨hbefore, -⟩ | ⟨message, hnew⟩
    · exact Nat.lt_of_lt_of_le (hin.awaited c hbefore n hn) hlength
    · have hpast := hin.past c n hn
      rw [hreceived, hnew, List.length_append]
      exact Nat.add_lt_add_right hpast 1
  · cases hmoves with
    | stays hsame _ => exact hin.once message rest (hsame.symm.trans hloop)
    | other hnone _ =>
      rw [hloop] at hnone
      cases hnone
    | receives _ hbroadcast _ =>
      rw [hloop] at hbroadcast
      cases hbroadcast
    | range _ order _ hrange horder _ =>
      rw [hloop] at hrange
      cases hrange
      exact Manager.nodup_order (Manager.keyed_of_reachable hin.reachable) horder
    | send _ client rest' hbefore hafter _ =>
      rw [hloop] at hafter
      cases hafter
      exact (hin.once _ _ hbefore).of_cons
  · cases hmoves with
    | stays hsame hnone =>
      rw [hreceived, hnone, Option.toList_none, List.append_nil]
      exact hin.current message (hsame ▸ hmessage)
    | other hnone _ =>
      rw [hnone] at hmessage
      cases hmessage
    | receives _ hbroadcast hnew =>
      rw [hbroadcast] at hmessage
      cases hmessage
      rw [hreceived, hnew, Option.toList_some, List.getLast?_concat]
    | range message' _ hbefore hafter _ hnone =>
      rw [hafter] at hmessage
      rw [hreceived, hnone, Option.toList_none, List.append_nil]
      exact hin.current message (by rw [hbefore]; exact hmessage)
    | send message' _ _ hbefore hafter hlabel =>
      subst hlabel
      rw [hafter] at hmessage
      refine Eq.trans (congrArg List.getLast? ?_)
        (hin.current message (by rw [hbefore]; exact hmessage))
      rw [hreceived]
      exact List.append_nil _
  · rcases hun.packets c p hp with hp | hnone
    · have hbefore := hin.labelled c p hp n hn
      rw [hreceived, List.getElem?_append_left (List.getElem?_eq_some_iff.mp hbefore).1]
      exact hbefore
    · rw [hnone] at hn
      cases hn

/-- The loop puts the last broadcast in the buffer of a client that has still to be sent it. -/
theorem InOrder.put (hin : h.InOrder) {message : List UInt8} {rest : List Client}
    (hloop : h.manager.loop = .sending message (client :: rest))
    (hstep : managers.step h.manager (.send none) = some h'.manager)
    (hloop' : h'.manager.loop = .sending message rest) (hreceived : h'.received = h.received)
    (hputs : h'.puts = update h.puts client
      (h.puts client ++ [⟨some (h.received.length - 1), message⟩])) : h'.InOrder := by
  have hlast := hin.current message (by rw [hloop]; rfl)
  have hpos : 0 < h.received.length := by
    refine List.length_pos_of_ne_nil fun hnil => ?_
    rw [hnil] at hlast
    cases hlast
  have hsame : ∀ c, c ≠ client → h'.numbers c = h.numbers c := by
    intro c hc
    rw [numbers, numbers, hputs, update_of_ne hc]
  have hself : h'.numbers client = h.numbers client ++ [h.received.length - 1] := by
    rw [numbers, numbers, hputs, update_self, List.filterMap_append]
    rfl
  have hnew : ∀ n ∈ h.numbers client, n < h.received.length - 1 := by
    intro n hn
    have hbefore := hin.awaited client (by rw [hloop]; exact List.mem_cons_self) n hn
    omega
  have hnodup := hin.once _ _ hloop
  refine ⟨hin.reachable.step hstep, fun c => ?_, fun c n hn => ?_, fun c hc n hn => ?_,
    fun message' rest' hrest => ?_, fun message' hmessage => ?_, fun c p hp n hn => ?_⟩
  · by_cases hc : c = client
    · subst hc
      rw [hself, List.pairwise_append]
      refine ⟨hin.increasing c, List.pairwise_singleton _ _, fun n hn n' hn' => ?_⟩
      rw [List.mem_singleton.mp hn']
      exact hnew n hn
    · rw [hsame c hc]
      exact hin.increasing c
  · rw [hreceived]
    by_cases hc : c = client
    · subst hc
      rw [hself] at hn
      rcases List.mem_append.mp hn with hn | hn
      · exact hin.past c n hn
      · rw [List.mem_singleton.mp hn]
        omega
    · rw [hsame c hc] at hn
      exact hin.past c n hn
  · rw [hloop'] at hc
    have hne : c ≠ client := by
      rintro rfl
      exact (List.nodup_cons.mp hnodup).1 hc
    rw [hsame c hne] at hn
    rw [hreceived]
    exact hin.awaited c (by rw [hloop]; exact List.mem_cons_of_mem _ hc) n hn
  · rw [hloop'] at hrest
    cases hrest
    exact hnodup.of_cons
  · rw [hloop'] at hmessage
    rw [hreceived]
    exact hin.current message' (by rw [hloop]; exact hmessage)
  · rw [hreceived]
    by_cases hc : c = client
    · subst hc
      rw [hputs, update_self] at hp
      rcases List.mem_append.mp hp with hp | hp
      · exact hin.labelled c p hp n hn
      · rw [List.mem_singleton.mp hp] at hn ⊢
        cases hn
        rw [← List.getLast?_eq_getElem?]
        exact hlast
    · rw [hputs, update_of_ne hc] at hp
      exact hin.labelled c p hp n hn

/-- The loop is sending to the client that is next. -/
theorem loop_of_next {message : List UInt8} (hnext : h.manager.next none = some (client, message)) :
    ∃ rest, h.manager.loop = .sending message (client :: rest) := by
  simp only [Manager.next] at hnext
  split at hnext
  · rename_i rest hloop
    cases hnext
    exact ⟨rest, hloop⟩
  · cases hnext

/-- A `Send` of the manager, past its look at the client, keeps the order. -/
theorem InOrder.push (hin : h.InOrder) {who : Option Nat} {message : List UInt8} {m : Manager}
    (hnext : h.manager.next who = some (client, message))
    (hstep : managers.step h.manager (.send who) = some m) (passed : List (Option Nat)) :
    InOrder { h.push client ⟨h.number who, message⟩ with manager := m, passed := passed } := by
  have hreceived : (h.push client ⟨h.number who, message⟩).received = h.received ++
      (h.manager.receives (.send who)).toList :=
    (push_received ..).trans (List.append_nil _).symm
  cases who with
  | some i =>
    have hun : Unnumbered h (h.push client ⟨none, message⟩) := unnumbered_push rfl
    exact hin.manage (l := .send (some i)) ⟨hun.numbers, hun.packets⟩ hstep hreceived
  | none =>
    by_cases hroom : (h.buffer client).length < sendCapacity
    · obtain ⟨rest, hloop⟩ := loop_of_next hnext
      have hloop' : m.loop = .sending message rest := by
        simp only [managers, Manager.step, Manager.sendNext, hloop, Option.some.injEq] at hstep
        rw [← hstep]
      refine hin.put hloop hstep hloop' (push_received ..) ?_
      exact push_puts_of_room hroom
    · rw [push_of_full hroom]
      exact hin.manage (l := .send none) (unnumbered_of_puts rfl) hstep (List.append_nil _).symm

/-- Every step keeps the order. -/
theorem InOrder.step {signal : Signal} (hin : h.InOrder) (hstep : h.step signal = some h') :
    h'.InOrder := by
  cases signal with
  | manage l =>
    obtain ⟨-, hmap⟩ := Option.ite_none_left_eq_some.mp hstep
    obtain ⟨m, hm, rfl⟩ := Option.map_eq_some_iff.mp hmap
    exact hin.manage (unnumbered_of_puts rfl) hm rfl
  | check who =>
    obtain ⟨-, hbind⟩ := Option.ite_none_left_eq_some.mp hstep
    obtain ⟨⟨client, message⟩, -, hlook⟩ := Option.bind_eq_some_iff.mp hbind
    dsimp only at hlook
    split at hlook
    · obtain ⟨m, hm, rfl⟩ := Option.map_eq_some_iff.mp hlook
      exact hin.manage (l := .send who) (unnumbered_of_puts rfl) hm (List.append_nil _).symm
    · cases hlook
      exact hin.beside (unnumbered_of_puts rfl) rfl rfl
  | put who =>
    obtain ⟨-, hbind⟩ := Option.ite_none_right_eq_some.mp hstep
    obtain ⟨⟨client, message⟩, hnext, hmap⟩ := Option.bind_eq_some_iff.mp hbind
    obtain ⟨m, hm, rfl⟩ := Option.map_eq_some_iff.mp hmap
    exact hin.push hnext hm _
  | release who =>
    obtain ⟨-, hmap⟩ := Option.ite_none_right_eq_some.mp hstep
    obtain ⟨m, hm, rfl⟩ := Option.map_eq_some_iff.mp hmap
    exact hin.manage (l := .send who) (unnumbered_of_puts rfl) hm (List.append_nil _).symm
  | enter client message =>
    simp only [Hub.step] at hstep
    split at hstep
    · cases hstep
      exact hin
    · cases hstep
      exact hin.beside (unnumbered_of_puts rfl) rfl rfl
  | leave i =>
    obtain ⟨⟨client, message⟩, -, rfl⟩ := Option.map_eq_some_iff.mp hstep
    have hun : Unnumbered h (h.push client ⟨none, message⟩) := unnumbered_push rfl
    exact hin.beside ⟨hun.numbers, hun.packets⟩ (push_manager ..) (push_received ..)
  | take client =>
    simp only [Hub.step] at hstep
    split at hstep
    · cases hstep
    · rename_i packet rest hbuffer
      cases hstep
      exact hin.beside (unnumbered_of_puts (take_puts hbuffer)) rfl rfl
  | shut client =>
    cases hstep
    exact hin.beside (unnumbered_of_puts rfl) rfl rfl

/-- The order holds in every run. -/
theorem inOrder_of_reachable (hreach : hubs.Reachable h) : h.InOrder := by
  refine hreach.invariant ?_ fun h signal h' hin hstep => hin.step hstep
  rintro h rfl
  exact inOrder_new

end Hub

/-- In an increasing list the positions are in the order of the elements. -/
theorem idxOf_lt_idxOf_iff {l : List Nat} (hl : l.Pairwise (· < ·)) {x y : Nat} (hx : x ∈ l)
    (hy : y ∈ l) : l.idxOf x < l.idxOf y ↔ x < y := by
  have hlt : ∀ {x y}, x ∈ l → y ∈ l → l.idxOf x < l.idxOf y → x < y := by
    intro x y hx hy hidx
    have hpair := List.pairwise_iff_getElem.mp hl _ _ (List.idxOf_lt_length_of_mem hx)
      (List.idxOf_lt_length_of_mem hy) hidx
    rwa [List.getElem_idxOf, List.getElem_idxOf] at hpair
  refine ⟨hlt hx hy, fun hxy => ?_⟩
  rcases Nat.lt_trichotomy (l.idxOf x) (l.idxOf y) with hidx | hidx | hidx
  · exact hidx
  · have heq : x = y := (List.idxOf_inj hx).mp hidx
    omega
  · have hyx := hlt hy hx hidx
    omega

/-- In every run, a numbered packet in a buffer is the broadcast that the loop received under this
number, each broadcast is put into a buffer at most once, and two buffers get their broadcasts in
the same order. -/
theorem broadcast_order_agrees (h : Hub) (hreach : hubs.Reachable h) (c d : Client) :
    (∀ p ∈ h.puts c, ∀ n, p.number = some n → h.received[n]? = some p.message) ∧
      (h.numbers c).Nodup ∧
      ∀ x y, x ∈ h.numbers c → y ∈ h.numbers c → x ∈ h.numbers d → y ∈ h.numbers d →
        ((h.numbers c).idxOf x < (h.numbers c).idxOf y ↔
          (h.numbers d).idxOf x < (h.numbers d).idxOf y) := by
  have hin := Hub.inOrder_of_reachable hreach
  refine ⟨hin.labelled c, (hin.increasing c).imp Nat.ne_of_lt, fun x y hxc hyc hxd hyd => ?_⟩
  rw [idxOf_lt_idxOf_iff (hin.increasing c) hxc hyc, idxOf_lt_idxOf_iff (hin.increasing d) hxd hyd]

/-- The loop looks at the next client and puts the message in its buffer. -/
def deliver : List Signal := [.check none, .put none]

/-- Two broadcasts to two sessions, in different orders of the clients, with a keepalive between. -/
def twoBroadcasts : List Signal :=
  registerTwice.map Signal.manage ++
    ([.manage (.call (.broadcastMessage [120])), .manage (.call .clientKeepLive),
      .manage (.receive 2), .manage (.range none [⟨"s1", alice⟩, ⟨"s2", aliceAgain⟩])] :
      List Signal) ++ deliver ++
    ([.manage (.range (some 3) [⟨"s2", aliceAgain⟩, ⟨"s1", alice⟩])] : List Signal) ++ deliver ++
    ([.release none, .check (some 3), .put (some 3), .take alice,
      .manage (.call (.broadcastMessage [121])), .manage (.receive 4),
      .manage (.range none [⟨"s2", aliceAgain⟩, ⟨"s1", alice⟩])] :
      List Signal) ++ deliver ++ deliver

/-- Both sessions have the two broadcasts in their order. -/
theorem broadcast_order_agrees_for_two :
    ∃ h, hubs.run Hub.new twoBroadcasts = some h ∧ h.numbers alice = [0, 1] ∧
      h.numbers aliceAgain = [0, 1] ∧
      (∀ p ∈ h.puts alice, ∀ n, p.number = some n → h.received[n]? = some p.message) ∧
      (h.numbers alice).Nodup ∧
      ∀ x y, x ∈ h.numbers alice → y ∈ h.numbers alice → x ∈ h.numbers aliceAgain →
        y ∈ h.numbers aliceAgain →
        ((h.numbers alice).idxOf x < (h.numbers alice).idxOf y ↔
          (h.numbers aliceAgain).idxOf x < (h.numbers aliceAgain).idxOf y) :=
  ⟨_, rfl, rfl, rfl, broadcast_order_agrees _ ⟨Hub.new, twoBroadcasts, rfl, rfl⟩ alice aliceAgain⟩

end Stardust.HttpServer.Clients
