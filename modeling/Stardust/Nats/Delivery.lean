import Stardust.Core.Progress

/-!
# The two ways to a handler

A message reaches the handler of a subscription through the fetch loop of a pull consumer, or
through a channel that the callback of a core subscription fills. The server passes on the
messages whose subjects match the pattern of the subscription. The fetch loop compares the subject
of each message with the pattern once more, as texts.
-/

namespace Stardust.Nats

open Stardust.Core

/-- A message. -/
structure Msg where
  subject : String
  data : String
  deriving DecidableEq

section Subjects

/-- The tokens of a subject. -/
def tokens (subject : String) : List (List Char) := subject.toList.splitOn '.'

/-- A token `*` matches any one token, and a last token `>` all that are left. -/
def matchTokens : List (List Char) → List (List Char) → Bool
  | [], [] => true
  | [], _ :: _ => false
  | _ :: _, [] => false
  | p :: ps, t :: ts =>
    if p = ['>'] ∧ ps = [] then true
    else if p = ['*'] then matchTokens ps ts
    else p = t && matchTokens ps ts

/-- The subject of a message matches a pattern. -/
def subjectMatches (pattern subject : String) : Bool :=
  matchTokens (tokens pattern) (tokens subject)

/-- The server accepts a pattern: no token is empty or contains white space, and `>` is only the
last one. -/
def validPattern (pattern : String) : Bool :=
  (tokens pattern).all (fun t => !t.isEmpty && t.all fun c => c ∉ [' ', '\t', '\r', '\n']) &&
    (tokens pattern).dropLast.all (· ≠ ['>'])

end Subjects

/-- What the server passes on to a subscription. -/
def delivered (pattern : String) (published : List Msg) : List Msg :=
  published.filter fun msg => subjectMatches pattern msg.subject

section FetchLoop

/-- The fetch loop of a pull consumer. -/
structure PullDelivery where
  /-- The messages that the consumer has yet to pass on. -/
  pending : List Msg
  /-- The messages of a batch that are yet to be looked at. -/
  msgs : List Msg
  handled : List Msg
  acked : List Msg

/-- What happens to the pull loop. -/
inductive PullEvent where
  /-- A batch with a number of messages arrives. -/
  | fetched (n : Nat)
  /-- The fetch ends with an error. -/
  | fetchFailed
  | next

namespace PullDelivery

variable {subject : String} {msgs : List Msg} {s s' : PullDelivery} {l : PullEvent}

/-- All messages are still at the server. -/
def start (msgs : List Msg) : PullDelivery := ⟨msgs, [], [], []⟩

/-- The next message of a batch. One with another subject is only logged. -/
def process (subject : String) (s : PullDelivery) (msg : Msg) (rest : List Msg) : PullDelivery :=
  if msg.subject = subject then
    { s with msgs := rest, handled := s.handled ++ [msg], acked := s.acked ++ [msg] }
  else { s with msgs := rest }

/-- One step of the loop. -/
def step (subject : String) (s : PullDelivery) : PullEvent → Option PullDelivery
  | .fetched n =>
    if s.msgs = [] ∧ 0 < n ∧ n ≤ 10 ∧ n ≤ s.pending.length then
      some { s with pending := s.pending.drop n, msgs := s.pending.take n }
    else none
  | .fetchFailed => if s.msgs = [] then some s else none
  | .next =>
    match s.msgs with
    | msg :: rest => some (s.process subject msg rest)
    | [] => none

/-- The runs of the loop on messages from the server. -/
def loop (subject : String) : System PullDelivery PullEvent where
  init s := ∃ msgs, s = start msgs
  step := step subject

/-- All messages were looked at. -/
def Done (s : PullDelivery) : Prop := s.pending = [] ∧ s.msgs = []

/-- The messages looked at so far are those before the rest, and of them the ones with the subject
were handled and acknowledged. -/
structure Filters (subject : String) (msgs : List Msg) (s : PullDelivery) : Prop where
  seen : ∃ seen, msgs = seen ++ (s.msgs ++ s.pending) ∧
    s.handled = seen.filter (fun msg => msg.subject = subject) ∧ s.acked = s.handled

private theorem Filters.step (h : s.Filters subject msgs) (hstep : s.step subject l = some s') :
    s'.Filters subject msgs := by
  obtain ⟨seen, hmsgs, hhandled, hacked⟩ := h.seen
  cases l with
  | fetched n =>
    simp only [PullDelivery.step] at hstep
    split_ifs at hstep with hfetch
    cases hstep
    refine ⟨seen, ?_, hhandled, hacked⟩
    rw [hmsgs, hfetch.1, List.nil_append, List.take_append_drop]
  | fetchFailed =>
    simp only [PullDelivery.step] at hstep
    split_ifs at hstep
    cases hstep
    exact h
  | next =>
    cases hbatch : s.msgs with
    | nil => simp [PullDelivery.step, hbatch] at hstep
    | cons msg rest =>
      simp only [PullDelivery.step, hbatch, Option.some.injEq] at hstep
      subst hstep
      refine ⟨seen ++ [msg], ?_, ?_⟩
      · unfold process
        split_ifs <;> simp [hmsgs, hbatch]
      · unfold process
        split_ifs with hsubject <;> simp [hhandled, hacked, hsubject]

/-- A loop that is done has handled and acknowledged the messages with its subject. -/
theorem handled_of_done {ls : List PullEvent}
    (hrun : (loop subject).run (start msgs) ls = some s) (hdone : s.Done) :
    s.handled = msgs.filter (fun msg => msg.subject = subject) ∧ s.acked = s.handled := by
  have hfilters : s.Filters subject msgs :=
    (loop subject).run_invariant (fun _ _ _ => Filters.step) ⟨[], rfl, rfl, rfl⟩ hrun
  obtain ⟨seen, hmsgs, hhandled, hacked⟩ := hfilters.seen
  rw [hdone.1, hdone.2, List.append_nil, List.append_nil] at hmsgs
  rw [hmsgs]
  exact ⟨hhandled, hacked⟩

/-- From everywhere the loop can get done. -/
theorem exists_done (subject : String) (s : PullDelivery) :
    ∃ ls s', (loop subject).run s ls = some s' ∧ s'.Done := by
  refine (loop subject).exists_run_of_measure (fun s => 2 * s.pending.length + s.msgs.length)
    (fun s => ?_) s
  cases hmsgs : s.msgs with
  | cons msg rest =>
    refine .inr ⟨.next, s.process subject msg rest,
      by simp only [loop, PullDelivery.step, hmsgs], ?_⟩
    unfold process
    split_ifs <;> simp
  | nil =>
    cases hpending : s.pending with
    | nil => exact .inl ⟨hpending, hmsgs⟩
    | cons msg rest =>
      refine .inr ⟨.fetched 1, { s with pending := rest, msgs := [msg] },
        by simp [loop, PullDelivery.step, hmsgs, hpending], ?_⟩
      simp only [List.length_cons, List.length_nil]
      omega

end PullDelivery

end FetchLoop

section Channel

/-- A core subscription with the channel between its callback and its goroutine. -/
structure CoreDelivery where
  /-- The messages for which the callback is yet to be called. -/
  pending : List Msg
  ch : List Msg
  handled : List Msg

/-- What happens to a plain subscription. -/
inductive CoreEvent where
  | callback
  | receive

namespace CoreDelivery

variable {msgs : List Msg} {s s' : CoreDelivery} {l : CoreEvent}

/-- No message was passed to the callback. -/
def start (msgs : List Msg) : CoreDelivery := ⟨msgs, [], []⟩

/-- The callback waits while the channel is full, and the goroutine while it is empty. -/
def step (s : CoreDelivery) : CoreEvent → Option CoreDelivery
  | .callback =>
    match s.pending with
    | msg :: rest => if s.ch.length < 64 then some { s with pending := rest, ch := s.ch ++ [msg] }
      else none
    | [] => none
  | .receive =>
    match s.ch with
    | msg :: rest => some { s with ch := rest, handled := s.handled ++ [msg] }
    | [] => none

/-- The runs of a plain subscription. -/
def loop : System CoreDelivery CoreEvent where
  init s := ∃ msgs, s = start msgs
  step := step

/-- All messages were handled. -/
def Done (s : CoreDelivery) : Prop := s.pending = [] ∧ s.ch = []

/-- The messages keep their order on their way. -/
def InOrder (msgs : List Msg) (s : CoreDelivery) : Prop := msgs = s.handled ++ (s.ch ++ s.pending)

private theorem InOrder.step (h : s.InOrder msgs) (hstep : s.step l = some s') :
    s'.InOrder msgs := by
  cases l with
  | callback =>
    cases hpending : s.pending with
    | nil => simp [CoreDelivery.step, hpending] at hstep
    | cons msg rest =>
      simp only [CoreDelivery.step, hpending] at hstep
      split_ifs at hstep
      cases hstep
      unfold InOrder at h ⊢
      rw [h, hpending]
      simp
  | receive =>
    cases hch : s.ch with
    | nil => simp [CoreDelivery.step, hch] at hstep
    | cons msg rest =>
      simp only [CoreDelivery.step, hch, Option.some.injEq] at hstep
      subst hstep
      unfold InOrder at h ⊢
      rw [h, hch]
      simp

private theorem handled_of_done {ls : List CoreEvent} (hrun : loop.run (start msgs) ls = some s)
    (hdone : s.Done) : s.handled = msgs := by
  have hstart : (start msgs).InOrder msgs := rfl
  have hinOrder : s.InOrder msgs := loop.run_invariant (fun _ _ _ => InOrder.step) hstart hrun
  rw [InOrder, hdone.1, hdone.2, List.append_nil, List.append_nil] at hinOrder
  exact hinOrder.symm

private theorem exists_done (s : CoreDelivery) : ∃ ls s', loop.run s ls = some s' ∧ s'.Done := by
  refine loop.exists_run_of_measure (fun s => 2 * s.pending.length + s.ch.length) (fun s => ?_) s
  cases hch : s.ch with
  | cons msg rest =>
    refine .inr ⟨.receive, { s with ch := rest, handled := s.handled ++ [msg] },
      by simp only [loop, CoreDelivery.step, hch], ?_⟩
    simp
  | nil =>
    cases hpending : s.pending with
    | nil => exact .inl ⟨hpending, hch⟩
    | cons msg rest =>
      refine .inr ⟨.callback, { s with pending := rest, ch := [msg] },
        by simp [loop, CoreDelivery.step, hch, hpending], ?_⟩
      simp only [List.length_cons, List.length_nil]
      omega

end CoreDelivery

end Channel

/-- Both ways have worked off the messages, and this has the same outcome: all messages were handled
in their order, and acknowledged by the fetch loop. -/
def Agree (msgs : List Msg) (pull : PullDelivery) (core : CoreDelivery) : Prop :=
  pull.handled = core.handled ∧ pull.handled = msgs ∧ pull.acked = msgs

/-- Whenever both ways have worked off what is delivered for a pattern, they agree, exactly if every
message delivered has the pattern itself as its subject. -/
theorem paths_agree_iff_subject_eq (pattern : String) (published : List Msg) :
    (∀ ls pull ls' core,
      (PullDelivery.loop pattern).run (.start (delivered pattern published)) ls = some pull →
      pull.Done →
      CoreDelivery.loop.run (.start (delivered pattern published)) ls' = some core → core.Done →
      Agree (delivered pattern published) pull core) ↔
    ∀ msg ∈ delivered pattern published, msg.subject = pattern := by
  have hfilter : (delivered pattern published).filter (fun msg => msg.subject = pattern) =
      delivered pattern published ↔
        ∀ msg ∈ delivered pattern published, msg.subject = pattern := by
    rw [List.filter_eq_self]
    simp only [decide_eq_true_eq]
  constructor
  · intro hagree
    obtain ⟨ls, pull, hpull, hpullDone⟩ :=
      PullDelivery.exists_done pattern (.start (delivered pattern published))
    obtain ⟨ls', core, hcore, hcoreDone⟩ :=
      CoreDelivery.exists_done (.start (delivered pattern published))
    obtain ⟨-, hall, -⟩ := hagree ls pull ls' core hpull hpullDone hcore hcoreDone
    rw [← hfilter, ← (PullDelivery.handled_of_done hpull hpullDone).1]
    exact hall
  · intro hsubject ls pull ls' core hpull hpullDone hcore hcoreDone
    obtain ⟨hhandled, hacked⟩ := PullDelivery.handled_of_done hpull hpullDone
    rw [hfilter.mpr hsubject] at hhandled
    refine ⟨?_, hhandled, hacked.trans hhandled⟩
    rw [hhandled, CoreDelivery.handled_of_done hcore hcoreDone]

/-- A message for a pattern with a wildcard is handled on one way and dropped on the other. -/
theorem wildcard_message_unhandled :
    validPattern "orders.*" = true ∧
      delivered "orders.*" [⟨"orders.new", "1"⟩] = [⟨"orders.new", "1"⟩] ∧
      (PullDelivery.loop "orders.*").run (.start [⟨"orders.new", "1"⟩]) [.fetched 1, .next] =
        some ⟨[], [], [], []⟩ ∧
      CoreDelivery.loop.run (.start [⟨"orders.new", "1"⟩]) [.callback, .receive] =
        some ⟨[], [], [⟨"orders.new", "1"⟩]⟩ ∧
      ¬Agree [⟨"orders.new", "1"⟩] ⟨[], [], [], []⟩ ⟨[], [], [⟨"orders.new", "1"⟩]⟩ :=
  ⟨by decide, by decide, rfl, rfl, fun h => nomatch h.1⟩

end Stardust.Nats
