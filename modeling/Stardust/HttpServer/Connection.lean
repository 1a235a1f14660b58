import Stardust.Core.Progress
import Stardust.HttpServer.Broadcast

/-!
# The two goroutines of a WebSocket client

`Listen` starts a goroutine that reads frames and answers them through the send channel, and one
that writes what is in the channel. They share the connection, the channels `send` and `closed`,
and nothing else; other goroutines send to the client as well, and any of them may close it.
-/

namespace Stardust.HttpServer

open Stardust.Core

namespace Connection

/-- A message in the channel: an answer of the own reader, or what another goroutine has sent. -/
structure Outgoing where
  answer : Bool
  data : List UInt8
  deriving DecidableEq

/-- Where the goroutine of `ReceivedMessage` stands. -/
inductive Reader (Message : Type) where
  /-- At `ReadMessage`. -/
  | reading
  /-- In `HandlerMessage`. -/
  | handling (message : Message)
  /-- At the first `select` of `Send`. -/
  | checking (data : List UInt8)
  /-- At the second `select` of `Send`. -/
  | putting (data : List UInt8)
  /-- The loop has ended and the client is being unregistered. -/
  | unregistering
  /-- Before the `Close` of the connection. -/
  | closing
  | ended
  deriving DecidableEq

/-- Where the goroutine of `SendMessage` stands. -/
inductive Writer where
  | selecting
  /-- A message was received from the channel. -/
  | writing (m : Outgoing)
  /-- The ticker has fired. -/
  | pinging
  /-- Before the `Close` of the connection. -/
  | returning
  | ended
  deriving DecidableEq

end Connection

open Connection in
/-- A client with its goroutines, and what has happened to it. -/
structure Connection (Message : Type) where
  reader : Reader Message
  writer : Writer
  /-- The frames that the connection has buffered for `ReadMessage`. -/
  buffered : List (List UInt8)
  send : List Outgoing
  /-- Whether the channel `closed` is closed. -/
  closed : Bool
  /-- Whether a call of `Close` is past that channel and has the connection before it. -/
  closing : Bool
  /-- Whether the connection is closed. -/
  connClosed : Bool
  /-- Whether a write has failed or was the last, which every later `NextWriter` reports. -/
  writeErr : Bool
  /-- The frames that `ReadMessage` has returned. -/
  frames : List (List UInt8)
  /-- The messages that went through the handler, with the answer if there is one. -/
  handled : List (Message × Option (List UInt8))
  /-- The answers that `Send` has dropped. -/
  dropped : List (List UInt8)
  /-- The messages passed to the connection, and whether they were written. -/
  passed : List (Outgoing × Bool)
  deriving DecidableEq

namespace Connection

/-- A step of one of the goroutines, of the network, or of another user of the client. -/
inductive Event where
  /-- The connection buffers whole frames from the network. -/
  | fill (frames : List (List UInt8))
  /-- `ReadMessage` returns a frame, which is decoded. -/
  | read
  /-- `ReadMessage` fails. -/
  | readError
  /-- `ReadMessage` answers a close frame, or fails to answer a ping. -/
  | control
  /-- The handler returns an answer or an error. -/
  | handle (result : Option (List UInt8))
  | check
  | put
  /-- The manager has received the client, or is stopped. -/
  | unregister
  | readerClose
  | take
  /-- The message is written, or lost. -/
  | write (ok : Bool)
  | tick
  | ping (ok : Bool)
  | observeClosed
  | writerClose
  /-- Another goroutine puts a message into the channel. -/
  | push (data : List UInt8)
  /-- `Close` closes the channel, once. -/
  | close
  /-- `Close` closes the connection. -/
  | closeConn
  deriving DecidableEq

/-- A step of one of the two goroutines. -/
def Event.own : Event → Bool
  | .fill _ | .control | .push _ | .close | .closeConn => false
  | _ => true

variable {Message : Type} (decode : List UInt8 → Option Message)

/-- A client whose goroutines have just been started. -/
def listen : Connection Message :=
  ⟨.reading, .selecting, [], [], false, false, false, false, [], [], [], []⟩

/-- The message of a frame, if the frame is not skipped. -/
def message (frame : List UInt8) : Option Message := if frame = [] then none else decode frame

/-- Where the reader stands after a frame. -/
def received (frame : List UInt8) : Reader Message :=
  match message decode frame with
  | none => .reading
  | some message => .handling message

/-- The handler has returned. -/
def answered (s : Connection Message) (message : Message) (result : Option (List UInt8)) :
    Connection Message :=
  { s with
    handled := s.handled ++ [(message, result)]
    reader := match result with
      | none => .reading
      | some data => .checking data }

/-- The second `select` of `Send`. -/
def putAnswer (s : Connection Message) (data : List UInt8) : Connection Message :=
  if s.send.length < Clients.sendCapacity then
    { s with reader := .reading, send := s.send ++ [⟨true, data⟩] }
  else { s with reader := .reading, dropped := s.dropped ++ [data] }

/-- A message that was received from the channel is passed to the connection. The errors of the
write itself are ignored. -/
def passOn (s : Connection Message) (m : Outgoing) (ok : Bool) : Option (Connection Message) :=
  if s.writeErr then some { s with writer := .returning, passed := s.passed ++ [(m, false)] }
  else if ok then
    if s.connClosed then none
    else some { s with writer := .selecting, passed := s.passed ++ [(m, true)] }
  else some { s with writer := .selecting, writeErr := true, passed := s.passed ++ [(m, false)] }

/-- One step. A frame that is buffered can still be read when the connection is closed, but
nothing more is buffered then, and no write succeeds. -/
def step (s : Connection Message) : Event → Option (Connection Message)
  | .fill frames =>
    match s.reader, s.buffered with
    | .reading, [] => if s.connClosed then none else some { s with buffered := frames }
    | _, _ => none
  | .read =>
    match s.reader, s.buffered with
    | .reading, frame :: rest =>
      some { s with
        buffered := rest
        frames := s.frames ++ [frame]
        reader := received decode frame }
    | _, _ => none
  | .readError =>
    match s.reader with
    | .reading => some { s with reader := .unregistering }
    | _ => none
  | .control =>
    match s.reader with
    | .reading => some { s with writeErr := true }
    | _ => none
  | .handle result =>
    match s.reader with
    | .handling message => some (s.answered message result)
    | _ => none
  | .check =>
    match s.reader with
    | .checking data =>
      if s.closed then some { s with reader := .reading, dropped := s.dropped ++ [data] }
      else some { s with reader := .putting data }
    | _ => none
  | .put =>
    match s.reader with
    | .putting data => some (s.putAnswer data)
    | _ => none
  | .unregister =>
    match s.reader with
    | .unregistering => some { s with reader := .closing }
    | _ => none
  | .readerClose =>
    match s.reader with
    | .closing => some { s with reader := .ended, connClosed := true }
    | _ => none
  | .take =>
    match s.writer, s.send with
    | .selecting, m :: rest => some { s with writer := .writing m, send := rest }
    | _, _ => none
  | .write ok =>
    match s.writer with
    | .writing m => s.passOn m ok
    | _ => none
  | .tick =>
    match s.writer with
    | .selecting => some { s with writer := .pinging }
    | _ => none
  | .ping ok =>
    match s.writer with
    | .pinging =>
      if ok then
        if s.connClosed || s.writeErr then none else some { s with writer := .selecting }
      else some { s with writer := .returning }
    | _ => none
  | .observeClosed =>
    match s.writer with
    | .selecting => if s.closed then some { s with writer := .returning } else none
    | _ => none
  | .writerClose =>
    match s.writer with
    | .returning => some { s with writer := .ended, connClosed := true }
    | _ => none
  | .push data =>
    if s.send.length < Clients.sendCapacity then some { s with send := s.send ++ [⟨false, data⟩] }
    else none
  | .close => if s.closed then none else some { s with closed := true, closing := true }
  | .closeConn => if s.closing then some { s with closing := false, connClosed := true } else none

/-- The runs of a client. -/
def connections : System (Connection Message) Event where
  init s := s = listen
  step := step decode

section Answers

/-- The data of the answers among some messages. -/
def ownData (ms : List Outgoing) : List (List UInt8) := (ms.filter (·.answer)).map (·.data)

/-- The answers that the handler has given. -/
def answers (s : Connection Message) : List (List UInt8) := s.handled.filterMap Prod.snd

/-- The messages that were written. -/
def written (s : Connection Message) : List Outgoing :=
  (s.passed.filter Prod.snd).map Prod.fst

/-- The messages that were passed to the connection and not written. -/
def lost (s : Connection Message) : List Outgoing :=
  (s.passed.filter fun p => !p.2).map Prod.fst

/-- The message that the reader has in the handler. -/
def Reader.message : Reader Message → List Message
  | .handling message => [message]
  | _ => []

/-- The answer that the reader is sending. -/
def Reader.data : Reader Message → List (List UInt8)
  | .checking data | .putting data => [data]
  | _ => []

/-- The message that the writer has received. -/
def Writer.message : Writer → List Outgoing
  | .writing m => [m]
  | _ => []

/-- The answers on their way: received by the writer, in the channel, or with the reader. -/
def underway (s : Connection Message) : List (List UInt8) :=
  ownData (s.writer.message ++ s.send) ++ s.reader.data

/-- What has left the reader, in order. -/
def queued (s : Connection Message) : List Outgoing :=
  s.passed.map Prod.fst ++ (s.writer.message ++ s.send)

/-- How the histories of a client fit together. -/
structure Ordered (s : Connection Message) : Prop where
  /-- The handler gets the messages of the frames, each once and in their order. -/
  messages : s.handled.map Prod.fst ++ s.reader.message = s.frames.filterMap (message decode)
  /-- The answers that were queued are answers of the handler, in their order. -/
  sublist : (ownData s.queued ++ s.reader.data).Sublist s.answers
  /-- Every answer is queued, with the reader, or dropped. -/
  length : (ownData s.queued).length + s.reader.data.length + s.dropped.length = s.answers.length

variable {decode} {s s' : Connection Message} {l : Event}

@[simp] private theorem ownData_append (ms ms' : List Outgoing) :
    ownData (ms ++ ms') = ownData ms ++ ownData ms' := by
  simp [ownData]

private theorem ownData_sent (data : List UInt8) : ownData [⟨false, data⟩] = [] := rfl

private theorem written_eq_of_lost (h : s.lost = []) : s.written = s.passed.map Prod.fst := by
  rw [lost, List.map_eq_nil_iff, List.filter_eq_nil_iff] at h
  rw [written, List.filter_eq_self.mpr]
  intro p hp
  simpa using h p hp

/-- A step with no frame and no call of the handler keeps the answers, but for those it drops. -/
theorem Ordered.moves (h : s.Ordered decode) (drops : List (List UInt8))
    (hframes : s'.frames = s.frames) (hhandled : s'.handled = s.handled)
    (hmessage : s'.reader.message = s.reader.message)
    (hqueued : ownData s.queued ++ s.reader.data =
      ownData s'.queued ++ s'.reader.data ++ drops)
    (hdropped : s'.dropped = s.dropped ++ drops) : s'.Ordered decode := by
  have hanswers : s'.answers = s.answers := by rw [answers, hhandled, answers]
  refine ⟨?_, ?_, ?_⟩
  · rw [hframes, hhandled, hmessage]
    exact h.messages
  · have hsublist := h.sublist
    rw [hqueued] at hsublist
    rw [hanswers]
    exact (List.sublist_append_left _ _).trans hsublist
  · have hlength := congrArg List.length hqueued
    simp only [List.length_append] at hlength
    rw [hanswers, ← h.length, hdropped, List.length_append]
    omega

/-- A frame comes in; the reader has nothing in hand before. -/
theorem Ordered.read {frame : List UInt8} {rest : List (List UInt8)} (h : s.Ordered decode)
    (hreader : s.reader = .reading) :
    Ordered decode { s with
      buffered := rest
      frames := s.frames ++ [frame]
      reader := received decode frame } := by
  have hdata : (received decode frame).data = s.reader.data := by
    rw [hreader, received]
    cases Connection.message decode frame <;> rfl
  refine ⟨?_, hdata ▸ h.sublist, hdata ▸ h.length⟩
  have hmessages := h.messages
  simp only [hreader, Reader.message, List.append_nil] at hmessages
  rw [List.filterMap_append, ← hmessages, List.append_cancel_left_eq, received]
  cases hmessage : Connection.message decode frame <;> simp [Reader.message, hmessage]

/-- The handler returns: an answer goes into the reader's hand. -/
theorem Ordered.answered {message : Message} (h : s.Ordered decode)
    (hreader : s.reader = .handling message) (result : Option (List UInt8)) :
    (s.answered message result).Ordered decode := by
  obtain ⟨hmessages, hsublist, hlength⟩ := h
  rw [hreader] at hmessages hsublist hlength
  cases result with
  | none =>
    refine ⟨by simpa [Connection.answered, Reader.message] using hmessages, ?_, ?_⟩
    · simpa [Connection.answered, answers, Reader.data, queued] using hsublist
    · simpa [Connection.answered, answers, Reader.data, queued] using hlength
  | some data =>
    refine ⟨by simpa [Connection.answered, Reader.message] using hmessages, ?_, ?_⟩
    · have happend := hsublist.append (List.Sublist.refl [data])
      simpa [Connection.answered, answers, Reader.data, queued] using happend
    · simp [Connection.answered, answers, Reader.data, queued] at hlength ⊢
      omega

/-- Every step keeps the histories together. -/
theorem Ordered.step (h : s.Ordered decode) (hstep : s.step decode l = some s') :
    s'.Ordered decode := by
  cases l with
  | read =>
    simp only [Connection.step] at hstep
    split at hstep
    · rename_i hreader _
      obtain rfl := Option.some.inj hstep
      exact h.read hreader
    · cases hstep
  | handle result =>
    simp only [Connection.step] at hstep
    split at hstep
    · rename_i hreader
      obtain rfl := Option.some.inj hstep
      exact h.answered hreader result
    · cases hstep
  | check =>
    simp only [Connection.step] at hstep
    split at hstep
    · rename_i data hreader
      split_ifs at hstep <;> obtain rfl := Option.some.inj hstep
      · exact h.moves [data] rfl rfl (by rw [hreader]; rfl)
          (by simp [hreader, Reader.data, queued]) rfl
      · exact h.moves [] rfl rfl (by rw [hreader]; rfl) (by simp [hreader, Reader.data, queued])
          (by simp)
    · cases hstep
  | put =>
    simp only [Connection.step] at hstep
    split at hstep
    · rename_i data hreader
      obtain rfl := Option.some.inj hstep
      unfold putAnswer
      split
      · exact h.moves [] rfl rfl (by rw [hreader]; rfl)
          (by simp [hreader, Reader.data, queued, ownData]) (by simp)
      · exact h.moves [data] rfl rfl (by rw [hreader]; rfl)
          (by simp [hreader, Reader.data, queued]) rfl
    · cases hstep
  | _ =>
    refine h.moves [] ?_ ?_ ?_ ?_ ?_ <;>
      grind [Connection.step, passOn, queued, Reader.message, Reader.data, Writer.message,
        ownData_append, ownData_sent]

/-- What the peer gets is, in order, part of what the handler answered to its frames, each handled
once and in order; if `Send` has dropped none and no write has failed, only answers underway are
missing. -/
theorem answers_written_in_order (s : Connection Message)
    (hreach : (connections decode).Reachable s) :
    s.handled.map Prod.fst ++ s.reader.message = s.frames.filterMap (message decode) ∧
      (ownData s.written).Sublist s.answers ∧
      (s.dropped = [] → s.lost = [] → s.answers = ownData s.written ++ s.underway) := by
  have hordered : s.Ordered decode :=
    hreach.invariant (by rintro s rfl; exact ⟨rfl, .refl _, rfl⟩) fun _ _ _ h hstep => h.step hstep
  refine ⟨hordered.messages, ?_, ?_⟩
  · refine List.Sublist.trans ?_ hordered.sublist
    simp only [queued, ownData_append, List.append_assoc]
    have hwritten : s.written.Sublist (s.passed.map Prod.fst) := List.filter_sublist.map _
    exact ((hwritten.filter _).map _).trans (List.sublist_append_left _ _)
  · intro hdropped hlost
    have hwritten : s.written = s.passed.map Prod.fst := written_eq_of_lost hlost
    have hlength := hordered.length
    rw [hdropped, List.length_nil, Nat.add_zero, ← List.length_append] at hlength
    have heq := hordered.sublist.eq_of_length hlength
    rw [← heq, hwritten]
    simp only [queued, underway, ownData_append, List.append_assoc]

/-- Two frames that are answered while another message is sent. -/
def answerTwo : List Event :=
  [.fill [[1], [], [2]], .read, .handle (some [11]), .check, .put, .push [0], .read, .read, .take,
    .handle (some [12]), .write true, .check, .put, .take, .write true, .take, .write true]

/-- Two requests are answered. -/
theorem two_answers_written_in_order :
    ∃ s, (connections some).run listen answerTwo = some s ∧ ownData s.written = [[11], [12]] ∧
      s.answers = ownData s.written ++ s.underway :=
  ⟨_, rfl, rfl, (@answers_written_in_order _ some _ ⟨listen, answerTwo, rfl, rfl⟩).2.2 rfl rfl⟩

end Answers

section Lifetime

/-- The steps that the reader has left when the connection is closed, with some frames still
buffered. -/
def Reader.remaining (frames : Nat) : Reader Message → Nat
  | .reading => 4 * frames + 3
  | .handling _ => 4 * frames + 6
  | .checking _ => 4 * frames + 5
  | .putting _ => 4 * frames + 4
  | .unregistering => 2
  | .closing => 1
  | .ended => 0

/-- The steps that the writer has left when the connection is closed: it can lose one message
before it gets to know. -/
def Writer.remaining (writeErr : Bool) : Writer → Nat
  | .selecting => if writeErr then 3 else 5
  | .writing _ => if writeErr then 2 else 4
  | .pinging => 2
  | .returning => 1
  | .ended => 0

/-- How many steps both goroutines can still take. -/
def remaining (s : Connection Message) : Nat :=
  s.reader.remaining s.buffered.length + s.writer.remaining s.writeErr

/-- Both goroutines have returned. -/
def Ended (s : Connection Message) : Prop := s.reader = .ended ∧ s.writer = .ended

/-- A goroutine that has returned has closed the connection. -/
def Closes (s : Connection Message) : Prop :=
  s.reader = .ended ∨ s.writer = .ended → s.connClosed = true

variable {decode} {s s' : Connection Message} {l : Event}

private theorem received_remaining (decode : List UInt8 → Option Message) (frame : List UInt8)
    (frames : Nat) :
    (received decode frame).remaining frames + 1 ≤ 4 * (frames + 1) + 3 := by
  rw [received]
  cases message decode frame with
  | none => simp only [Reader.remaining]; omega
  | some message => simp only [Reader.remaining]; omega

/-- On a closed connection every step of a goroutine is one of those it has left. -/
theorem remaining_step (hclosed : s.connClosed = true) (hstep : s.step decode l = some s') :
    s'.connClosed = true ∧ weight Event.own l + s'.remaining ≤ s.remaining := by
  cases l with
  | read =>
    simp only [step] at hstep
    split at hstep
    · rename_i frame rest hreader hbuffered
      obtain rfl := Option.some.inj hstep
      have hreceived := received_remaining decode frame rest.length
      refine ⟨hclosed, ?_⟩
      rw [remaining, remaining, hreader, hbuffered, List.length_cons]
      change 1 + _ ≤ 4 * (rest.length + 1) + 3 + _
      dsimp only
      omega
    · cases hstep
  | handle result =>
    cases result <;> simp only [step, answered] at hstep <;>
      grind [weight, Event.own, remaining, Reader.remaining]
  | control =>
    cases hwriter : s.writer <;> grind [step, weight, Event.own, remaining, Writer.remaining]
  | _ =>
    grind [step, putAnswer, passOn, weight, Event.own, remaining, Reader.remaining,
      Writer.remaining]

/-- A goroutine returns only through its own `Close`. -/
theorem closed_of_step (hstep : s.step decode l = some s')
    (hended : s'.reader = .ended ∨ s'.writer = .ended) :
    (s.reader = .ended ∨ s.writer = .ended) ∨ s'.connClosed = true := by
  cases l with
  | handle result => cases result <;> simp only [step, answered] at hstep <;> grind
  | _ => grind [step, received, putAnswer, passOn]

private theorem Closes.step (h : s.Closes) (hstep : s.step decode l = some s') : s'.Closes := by
  intro hended
  rcases closed_of_step hstep hended with hbefore | hclosed
  · exact (remaining_step (h hbefore) hstep).1
  · exact hclosed

/-- A goroutine that has not returned has a next step. -/
theorem ended_of_no_step (h : ∀ l : Event, l.own = true → s.step decode l = none) : s.Ended := by
  constructor
  · cases hreader : s.reader with
    | reading => simpa [step, hreader] using h .readError rfl
    | handling => simpa [step, hreader] using h (.handle none) rfl
    | checking =>
      have hnone := h .check rfl
      simp only [step, hreader] at hnone
      split_ifs at hnone
    | putting => simpa [step, hreader] using h .put rfl
    | unregistering => simpa [step, hreader] using h .unregister rfl
    | closing => simpa [step, hreader] using h .readerClose rfl
    | ended => rfl
  · cases hwriter : s.writer with
    | selecting => simpa [step, hwriter] using h .tick rfl
    | writing =>
      have hnone := h (.write false) rfl
      simp only [step, hwriter, passOn, Bool.false_eq_true, if_false] at hnone
      split_ifs at hnone
    | pinging => simpa [step, hwriter] using h (.ping false) rfl
    | returning => simpa [step, hwriter] using h .writerClose rfl
    | ended => rfl

private theorem remaining_le (s : Connection Message) :
    s.remaining ≤ 4 * s.buffered.length + 11 := by
  have hreader : s.reader.remaining s.buffered.length ≤ 4 * s.buffered.length + 6 := by
    cases s.reader <;> simp only [Reader.remaining] <;> omega
  have hwriter : s.writer.remaining s.writeErr ≤ 5 := by
    cases s.writer <;> cases s.writeErr <;> simp [Writer.remaining]
  rw [remaining]
  omega

/-- The goroutines end together: one that has returned has closed the connection, and once that is
closed, both take a bounded number of further steps and wait only for the handler and the manager.
-/
theorem goroutines_end_together (s : Connection Message)
    (hreach : (connections decode).Reachable s) :
    (s.reader = .ended ∨ s.writer = .ended → s.connClosed = true) ∧
      (s.connClosed = true → ∀ ls s', (connections decode).run s ls = some s' →
        ls.countP Event.own ≤ 4 * s.buffered.length + 11 ∧
          ((∀ l : Event, l.own = true → s'.step decode l = none) → s'.Ended)) := by
  refine ⟨?_, ?_⟩
  · exact hreach.invariant (P := Closes) (by rintro s rfl (h | h) <;> cases h)
      fun _ _ _ h hstep => h.step hstep
  · intro hclosed ls s' hrun
    have hspent := (connections decode).run_countP_le (P := fun t => t.connClosed = true)
      remaining Event.own (fun _ _ _ h hstep => remaining_step h hstep) hclosed hrun
    have hbound := s.remaining_le
    exact ⟨by omega, ended_of_no_step⟩

/-- A read fails while an answer is still in the channel. -/
def readFails : List Event :=
  [.fill [[1]], .read, .handle (some [11]), .check, .put, .readError, .unregister, .readerClose]

/-- The writer loses the answer, and the next ping tells it. -/
def writerEnds : List Event := [.take, .write false, .tick, .ping false, .writerClose]

/-- Both goroutines end. -/
theorem goroutines_end_after_read_error :
    ∃ s s', (connections some).run listen readFails = some s ∧ s.connClosed = true ∧
      (connections some).run s writerEnds = some s' ∧
      writerEnds.countP Event.own ≤ 4 * s.buffered.length + 11 ∧ s'.Ended :=
  ⟨_, _, rfl, rfl, rfl, ((@goroutines_end_together _ some _ ⟨listen, readFails, rfl, rfl⟩).2 rfl
    writerEnds _ rfl).1, rfl, rfl⟩

end Lifetime

end Connection

end Stardust.HttpServer
