import Stardust.Nats.Delivery

/-!
# The goroutines of a subscription

A pull subscription has a goroutine that fetches batches, and a core subscription one that receives
from a channel. Both hand messages to the handler, and both recover from its panics outside their
loops. As long as the handler returns, they are the two ways of delivery.
-/

namespace Stardust.Nats

open Stardust.Core

section Fetch

/-- Where a fetch goroutine is. -/
inductive FetchPosition where
  /-- At the `select` at the head of the loop. -/
  | select
  /-- About to fetch. -/
  | fetch
  /-- After a no-responders error. -/
  | heal
  /-- In a batch with these messages left. -/
  | batch (rest : List Msg)
  /-- It has ended and left these messages of its last batch. -/
  | ended (left : List Msg)
  deriving DecidableEq

/-- The messages of a batch that are left. -/
def FetchPosition.msgs : FetchPosition → List Msg
  | .batch rest => rest
  | .ended left => left
  | _ => []

/-- A fetch goroutine with the context of its connection. -/
structure FetchGoroutine where
  position : FetchPosition
  /-- The context is done. -/
  cancelled : Bool
  /-- The messages passed to the handler. -/
  handled : List Msg
  /-- The messages acknowledged. -/
  acked : List Msg
  deriving DecidableEq

/-- A step. What a fetch comes to is an input, and so is whether a self-heal succeeds. -/
inductive FetchEvent where
  | cancel
  | select
  | fetched (msgs : List Msg)
  | fetchTimeout
  | fetchNoResponders
  | fetchFailed
  | selfHeal (ok : Bool)
  | next
  deriving DecidableEq

/-- The messages that a fetch brings. -/
def FetchEvent.batch : FetchEvent → List Msg
  | .fetched msgs => msgs
  | _ => []

namespace FetchGoroutine

/-- At the head of the loop, nothing handled. -/
def start : FetchGoroutine := ⟨.select, false, [], []⟩

/-- The next message of a batch. A panic of the handler leaves the loop, before the message is
acknowledged. -/
def process (subject : String) (panics : Msg → Bool) (s : FetchGoroutine) (msg : Msg)
    (rest : List Msg) : FetchGoroutine :=
  if msg.subject = subject then
    if panics msg then
      { s with position := .ended rest, handled := s.handled ++ [msg] }
    else
      { s with
        position := .batch rest
        handled := s.handled ++ [msg]
        acked := s.acked ++ [msg] }
  else { s with position := .batch rest }

/-- One step. After a self-heal the loop goes on whether or not there is a new subscription. -/
def step (subject : String) (panics : Msg → Bool) (s : FetchGoroutine) :
    FetchEvent → Option FetchGoroutine
  | .cancel => some { s with cancelled := true }
  | .select =>
    if s.position = .select then
      some { s with position := if s.cancelled then .ended [] else .fetch }
    else none
  | .fetched msgs => if s.position = .fetch then some { s with position := .batch msgs } else none
  | .fetchTimeout | .fetchFailed =>
    if s.position = .fetch then some { s with position := .select } else none
  | .fetchNoResponders => if s.position = .fetch then some { s with position := .heal } else none
  | .selfHeal _ => if s.position = .heal then some { s with position := .select } else none
  | .next =>
    match s.position with
    | .batch (msg :: rest) => some (s.process subject panics msg rest)
    | .batch [] => some { s with position := .select }
    | _ => none

/-- The runs of a fetch goroutine with a handler. -/
def fetchLoops (subject : String) (panics : Msg → Bool) : System FetchGoroutine FetchEvent where
  init s := s = start
  step := step subject panics

/-- What the loop is with messages that are yet to be fetched. -/
def delivery (s : FetchGoroutine) (pending : List Msg) : PullDelivery :=
  ⟨pending, s.position.msgs, s.handled, s.acked⟩

variable {subject : String} {panics : Msg → Bool} {s s' : FetchGoroutine} {l : FetchEvent}

/-- A step is one of the loop, or the loop does not notice it. -/
theorem step_delivery (hpanics : ∀ msg, msg.subject = subject → panics msg = false)
    (hbatch : ∀ msgs, l = .fetched msgs → 1 ≤ msgs.length ∧ msgs.length ≤ 10)
    (hstep : s.step subject panics l = some s') (pending : List Msg) :
    ∃ ls, (PullDelivery.loop subject).run (s.delivery (l.batch ++ pending)) ls =
      some (s'.delivery pending) := by
  cases l with
  | cancel =>
    cases hstep
    exact ⟨[], rfl⟩
  | select =>
    obtain ⟨hposition, hsome⟩ := Option.ite_none_right_eq_some.mp hstep
    cases hsome
    refine ⟨[], ?_⟩
    cases s.cancelled <;>
      simp [delivery, hposition, FetchPosition.msgs, FetchEvent.batch]
  | fetched msgs =>
    obtain ⟨hposition, hsome⟩ := Option.ite_none_right_eq_some.mp hstep
    cases hsome
    refine ⟨[.fetched msgs.length], ?_⟩
    obtain ⟨hpos, hle⟩ := hbatch msgs rfl
    have hpos' : msgs ≠ [] := List.length_pos_iff.mp hpos
    simp [System.run, PullDelivery.loop, PullDelivery.step, delivery, hposition,
      FetchPosition.msgs, FetchEvent.batch, hle, hpos', List.length_pos_iff]
  | fetchTimeout | fetchFailed | fetchNoResponders | selfHeal =>
    obtain ⟨hposition, hsome⟩ := Option.ite_none_right_eq_some.mp hstep
    cases hsome
    exact ⟨[], by simp [delivery, hposition, FetchPosition.msgs, FetchEvent.batch]⟩
  | next =>
    simp only [FetchGoroutine.step] at hstep
    split at hstep
    · rename_i msg rest hposition
      obtain rfl := Option.some.inj hstep
      refine ⟨[.next], ?_⟩
      by_cases hsubject : msg.subject = subject
      · simp [System.run, PullDelivery.loop, PullDelivery.step, PullDelivery.process, process,
          delivery, hposition, FetchPosition.msgs, FetchEvent.batch, hsubject,
          hpanics msg hsubject]
      · simp [System.run, PullDelivery.loop, PullDelivery.step, PullDelivery.process, process,
          delivery, hposition, FetchPosition.msgs, FetchEvent.batch, hsubject]
    · rename_i hposition
      obtain rfl := Option.some.inj hstep
      exact ⟨[], by simp [delivery, hposition, FetchPosition.msgs, FetchEvent.batch]⟩
    · cases hstep

/-- A goroutine whose handler never panics is the loop on the batches it fetches. -/
theorem run_delivery (hpanics : ∀ msg, msg.subject = subject → panics msg = false)
    {ls : List FetchEvent}
    (hbatches : ∀ l ∈ ls, ∀ msgs, l = .fetched msgs → 1 ≤ msgs.length ∧ msgs.length ≤ 10)
    (hrun : (fetchLoops subject panics).run s ls = some s') (pending : List Msg) :
    ∃ ls', (PullDelivery.loop subject).run
      (s.delivery (ls.flatMap FetchEvent.batch ++ pending)) ls' = some (s'.delivery pending) :=
  System.run_simulated _ (fun _ _ _ rest hbatch hstep => step_delivery hpanics hbatch hstep rest)
    hbatches hrun pending

end FetchGoroutine

end Fetch

section Channel

/-- The goroutine of a core subscription. -/
structure CoreGoroutine where
  /-- The channel that the callback fills. -/
  ch : List Msg
  /-- The context is done. -/
  cancelled : Bool
  /-- The goroutine has returned. -/
  ended : Bool
  /-- The messages passed to the handler. -/
  handled : List Msg
  deriving DecidableEq

/-- A step. The `select` takes either of its cases when both are ready. -/
inductive CoreGoroutineEvent where
  | cancel
  | callback (msg : Msg)
  | done
  | receive
  deriving DecidableEq

/-- The messages that a callback sends. -/
def CoreGoroutineEvent.sent : CoreGoroutineEvent → List Msg
  | .callback msg => [msg]
  | _ => []

namespace CoreGoroutine

/-- Nothing received. -/
def start : CoreGoroutine := ⟨[], false, false, []⟩

/-- One step. The callback waits while the channel is full. -/
def step (panics : Msg → Bool) (s : CoreGoroutine) : CoreGoroutineEvent → Option CoreGoroutine
  | .cancel => some { s with cancelled := true }
  | .callback msg => if s.ch.length < 64 then some { s with ch := s.ch ++ [msg] } else none
  | .done => if s.ended = false ∧ s.cancelled = true then some { s with ended := true } else none
  | .receive =>
    match s.ended, s.ch with
    | false, msg :: rest =>
      some { s with ch := rest, handled := s.handled ++ [msg], ended := panics msg }
    | _, _ => none

/-- The runs of a core goroutine with a handler. -/
def coreLoops (panics : Msg → Bool) : System CoreGoroutine CoreGoroutineEvent where
  init s := s = start
  step := step panics

/-- What the channel is with messages that are yet to be sent. -/
def delivery (s : CoreGoroutine) (pending : List Msg) : CoreDelivery :=
  ⟨pending, s.ch, s.handled⟩

variable {panics : Msg → Bool} {s s' : CoreGoroutine} {l : CoreGoroutineEvent}

/-- A step is one of the channel, or the channel does not notice it. -/
theorem step_delivery (hstep : s.step panics l = some s') (pending : List Msg) :
    ∃ ls, CoreDelivery.loop.run (s.delivery (l.sent ++ pending)) ls =
      some (s'.delivery pending) := by
  cases l with
  | cancel =>
    cases hstep
    exact ⟨[], rfl⟩
  | callback msg =>
    obtain ⟨hroom, hsome⟩ := Option.ite_none_right_eq_some.mp hstep
    cases hsome
    refine ⟨[.callback], ?_⟩
    simp [System.run, CoreDelivery.loop, CoreDelivery.step, delivery, CoreGoroutineEvent.sent,
      hroom]
  | done =>
    obtain ⟨-, hsome⟩ := Option.ite_none_right_eq_some.mp hstep
    cases hsome
    exact ⟨[], rfl⟩
  | receive =>
    simp only [CoreGoroutine.step] at hstep
    split at hstep
    · rename_i msg rest _ hch
      obtain rfl := Option.some.inj hstep
      refine ⟨[.receive], ?_⟩
      simp [System.run, CoreDelivery.loop, CoreDelivery.step, delivery, CoreGoroutineEvent.sent,
        hch]
    · cases hstep

/-- A goroutine is the channel with the messages that its callback sends. -/
theorem run_delivery {ls : List CoreGoroutineEvent}
    (hrun : (coreLoops panics).run s ls = some s') (pending : List Msg) :
    ∃ ls', CoreDelivery.loop.run
      (s.delivery (ls.flatMap CoreGoroutineEvent.sent ++ pending)) ls' =
        some (s'.delivery pending) :=
  System.run_simulated _ (P := fun _ => True) (fun _ _ _ rest _ hstep => step_delivery hstep rest)
    (fun _ _ => trivial) hrun pending

end CoreGoroutine

end Channel

end Stardust.Nats
