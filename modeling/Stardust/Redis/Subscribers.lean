import Stardust.Core.System
import Stardust.Redis.Notification
import Mathlib.Data.Fintype.Basic

/-!
# Several subscribers of one notification

Every expiry is announced to all subscribers, each of which gets to it in its own time. A
subscriber takes the lock for the payload or finds that it has it already, calls the handler, and
then lets the payload wait again or gives the lock up. An expiry is handled by one subscriber only
as long as no lock is given up while another subscriber has still to turn down an expiry that was
handled under it.
-/

namespace Stardust.Redis

open Stardust.Core Function

/-- A value in Redis and its time to live in nanoseconds, not positive for none. -/
structure Item where
  data : String
  ttl : Int
  deriving DecidableEq, Repr

/-- The keys of the database. -/
abbrev Store := String → Option Item

/-- Let a payload wait for the time of its policy; the index panics outside the policies. -/
def Notification.putNotification (n : Notification) (store : Store) (failed : Bool)
    (p : Payload) : Option Store :=
  if p.count < 0 then none
  else (n.policies[p.count.toNat]?).map fun policy =>
    if failed then store else update store (n.waitKey p) (some ⟨"\x01", policy⟩)

/-- Where the loop of a subscriber stands. -/
inductive SubscriberPhase where
  /-- Waiting for a message. -/
  | idle
  /-- About to set the lock for the payload of an event. -/
  | locking (event : Nat) (p : Payload)
  /-- The lock is set; about to ask whose it is. -/
  | checking (event : Nat) (p : Payload)
  /-- About to call the handler. -/
  | handling (event : Nat) (p : Payload)
  /-- The handler has answered whether to put the payload again. -/
  | answered (event : Nat) (p : Payload) (putNext : Bool)
  /-- The process has panicked. -/
  | crashed
  deriving DecidableEq, Repr

/-- The event on whose way to the handler a loop is. -/
def SubscriberPhase.pursues : SubscriberPhase → Option Nat
  | .locking event _ | .checking event _ | .handling event _ => some event
  | _ => none

/-- The event and the payload that a loop is busy with. -/
def SubscriberPhase.job : SubscriberPhase → Option (Nat × Payload)
  | .locking event p | .checking event p | .handling event p | .answered event p _ =>
    some (event, p)
  | .idle | .crashed => none

/-- The payload for which a loop has the lock. -/
def SubscriberPhase.locked : SubscriberPhase → Option Payload
  | .handling _ p | .answered _ p _ => some p
  | _ => none

/-- A subscriber. -/
structure Subscriber where
  /-- The notification it subscribes to. -/
  notification : Notification
  /-- The number of its goroutine. -/
  routineID : Nat
  /-- Where its loop stands. -/
  phase : SubscriberPhase
  /-- The events that it has received. -/
  seen : List Nat
  deriving DecidableEq, Repr

/-- The name of the subscriber as an owner of locks. -/
def Subscriber.owner (b : Subscriber) : String := b.notification.owner b.routineID

/-- Subscribers on one database. -/
structure Subscribers (ι : Type) where
  subscribers : ι → Subscriber
  store : Store
  db : Nat
  /-- The channels of all expiries so far. -/
  events : List String
  /-- Which subscribers have called their handler for which events. -/
  handled : List (Nat × ι)

/-- The steps of the subscribers and of what surrounds them. -/
inductive SubscriberLabel (ι : Type) where
  /-- A payload is put from outside the loop. -/
  | put (i : ι) (p : Payload)
  | expire (key : String)
  /-- A subscriber receives an event. -/
  | deliver (i : ι) (event : Nat)
  /-- The lock is set if there is none. -/
  | setNX (i : ι) (failed : Bool)
  /-- The owner of the lock is read. -/
  | get (i : ι) (failed : Bool)
  /-- The handler is called and answers. -/
  | handle (i : ι) (putNext : Bool)
  /-- The payload is put again. -/
  | putNext (i : ι) (failed : Bool)
  /-- The lock is given up. -/
  | unlock (i : ι) (failed : Bool)
  deriving DecidableEq, Repr

namespace Subscribers

variable {ι : Type}

/-- The value in the payload of an event. -/
def valueOf (s : Subscribers ι) (event : Nat) : Option String :=
  match s.events[event]? with
  | none => none
  | some channel => match decodePayload channel with
    | .error _ => none
    | .ok p => some p.value

section Step

variable (s : Subscribers ι)

/-- The key of the lock of a subscriber for a payload. -/
def lockOf (i : ι) (p : Payload) : String := (s.subscribers i).notification.lockKey p.value

/-- The keys with the lock for a payload set to an owner, or removed. -/
def withLock (i : ι) (p : Payload) (item : Option Item) : Store :=
  update s.store (s.lockOf i p) item

variable [DecidableEq ι]

/-- A subscriber goes on. -/
def enter (i : ι) (phase : SubscriberPhase) : Subscribers ι :=
  { s with subscribers := update s.subscribers i { s.subscribers i with phase } }

/-- A subscriber has received an event and goes on. -/
def receive (i : ι) (event : Nat) (phase : SubscriberPhase) : Subscribers ι :=
  { s with
    subscribers := update s.subscribers i
      { s.subscribers i with phase, seen := event :: (s.subscribers i).seen } }

/-- A subscriber receives an event; a message that does not decode is skipped. -/
def deliver (i : ι) (event : Nat) : Option (Subscribers ι) :=
  if (s.subscribers i).phase = .idle ∧ event ∉ (s.subscribers i).seen then
    (s.events[event]?).map fun channel =>
      match decodePayload channel with
      | .error _ => s.receive i event .idle
      | .ok p => s.receive i event (.locking event { p with count := p.count + 1 })
  else none

/-- Set the lock unless it is set; an error counts as a set lock. -/
def setNX (i : ι) (failed : Bool) : Option (Subscribers ι) :=
  match (s.subscribers i).phase with
  | .locking event p =>
    if failed = false ∧ s.store (s.lockOf i p) = none then
      let store := s.withLock i p (some ⟨(s.subscribers i).owner, 0⟩)
      some ({ s with store }.enter i (.handling event p))
    else some (s.enter i (.checking event p))
  | _ => none

/-- Ask whose the lock is; an error counts as another's. -/
def get (i : ι) (failed : Bool) : Option (Subscribers ι) :=
  match (s.subscribers i).phase with
  | .checking event p =>
    if failed = false ∧ (s.store (s.lockOf i p)).map (·.data) = some (s.subscribers i).owner then
      some (s.enter i (.handling event p))
    else some (s.enter i .idle)
  | _ => none

/-- The attempts of a payload are not used up. -/
def again (n : Notification) (p : Payload) (putNext : Bool) : Bool :=
  putNext && decide (p.count < n.policies.length)

/-- One step. -/
def step : SubscriberLabel ι → Option (Subscribers ι)
  | .put i p =>
    ((s.subscribers i).notification.putNotification s.store false p).map fun store =>
      { s with store }
  | .expire key =>
    match s.store key with
    | some item =>
      if 0 < item.ttl then
        some { s with
          store := update s.store key none
          events := s.events ++ [keyspaceChannel s.db key] }
      else none
    | none => none
  | .deliver i event => s.deliver i event
  | .setNX i failed => s.setNX i failed
  | .get i failed => s.get i failed
  | .handle i putNext =>
    match (s.subscribers i).phase with
    | .handling event p =>
      some ({ s with handled := (event, i) :: s.handled }.enter i (.answered event p putNext))
    | _ => none
  | .putNext i failed =>
    match (s.subscribers i).phase with
    | .answered _ p putNext =>
      if again (s.subscribers i).notification p putNext = true then
        match (s.subscribers i).notification.putNotification s.store failed p with
        | none => some (s.enter i .crashed)
        | some store => some ({ s with store }.enter i .idle)
      else none
    | _ => none
  | .unlock i failed =>
    match (s.subscribers i).phase with
    | .answered _ p putNext =>
      if again (s.subscribers i).notification p putNext = true then none
      else if failed then some (s.enter i .idle)
      else some ({ s with store := s.withLock i p none }.enter i .idle)
    | _ => none

end Step

/-- Subscribers with different nodes on the same key begin; no key that names one of them as its
owner expires. -/
structure Started (s : Subscribers ι) : Prop where
  /-- All subscribe to the same key of the same view. -/
  made : ∃ key cache, ∀ i, ∃ node policies,
    newNotification node key (some cache) policies = some (s.subscribers i).notification
  /-- Their nodes differ. -/
  nodes : ∀ i j, (s.subscribers i).notification.node = (s.subscribers j).notification.node → i = j
  /-- They wait for messages. -/
  idle : ∀ i, (s.subscribers i).phase = .idle ∧ (s.subscribers i).seen = []
  /-- Nothing has expired. -/
  quiet : s.events = [] ∧ s.handled = []
  /-- Locks do not expire. -/
  lasting : ∀ i key item, s.store key = some item → item.data = (s.subscribers i).owner →
    item.ttl ≤ 0

/-- The runs of the subscribers. -/
def subscriptions (ι : Type) [DecidableEq ι] : System (Subscribers ι) (SubscriberLabel ι) :=
  ⟨Started, fun s => s.step⟩

/-- Every event is handled by at most one subscriber. -/
def AtMostOnce (s : Subscribers ι) : Prop :=
  ∀ event i j, (event, i) ∈ s.handled → (event, j) ∈ s.handled → i = j

/-- A subscriber has not turned an event down: it has yet to receive it, or is on its way to the
handler. -/
def Outstanding (s : Subscribers ι) (j : ι) (event : Nat) : Prop :=
  event ∉ (s.subscribers j).seen ∨ (s.subscribers j).phase.pursues = some event

instance (s : Subscribers ι) (j : ι) (event : Nat) : Decidable (s.Outstanding j event) :=
  inferInstanceAs (Decidable
    (event ∉ (s.subscribers j).seen ∨ (s.subscribers j).phase.pursues = some event))

/-- A lock is given up only when every other subscriber has turned down all events that were
handled under it. -/
def ReleasesLate (s : Subscribers ι) : SubscriberLabel ι → Prop
  | .unlock i false =>
    match (s.subscribers i).phase with
    | .answered _ p _ => ∀ entry ∈ s.handled, s.valueOf entry.1 = some p.value →
        ∀ j, j ≠ i → ¬ s.Outstanding j entry.1
    | _ => True
  | _ => True

instance [DecidableEq ι] [Fintype ι] (s : Subscribers ι) : ∀ label, Decidable (s.ReleasesLate label)
  | .unlock i false =>
    match h : (s.subscribers i).phase with
    | .answered _ p _ =>
      decidable_of_iff (∀ entry ∈ s.handled, s.valueOf entry.1 = some p.value →
        ∀ j, j ≠ i → ¬ s.Outstanding j entry.1) (by simp only [ReleasesLate, h])
    | .idle | .locking _ _ | .checking _ _ | .handling _ _ | .crashed =>
      isTrue (by simp only [ReleasesLate, h])
  | .unlock _ true | .put _ _ | .expire _ | .deliver _ _ | .setNX _ _ | .get _ _ | .handle _ _
  | .putNext _ _ => isTrue trivial

/-- The steps by their effects. -/
inductive Moves [DecidableEq ι] (s : Subscribers ι) : SubscriberLabel ι → Subscribers ι → Prop
  | put {i : ι} {p : Payload} {store : Store}
    (h : (s.subscribers i).notification.putNotification s.store false p = some store) :
    Moves s (.put i p) { s with store }
  | expire {key : String} {item : Item} (h : s.store key = some item) (httl : 0 < item.ttl) :
    Moves s (.expire key)
      { s with
        store := update s.store key none
        events := s.events ++ [keyspaceChannel s.db key] }
  | skip {i : ι} {event : Nat} (h : (s.subscribers i).phase = .idle) :
    Moves s (.deliver i event) (s.receive i event .idle)
  | receive {i : ι} {event : Nat} {p : Payload} (h : (s.subscribers i).phase = .idle)
    (hnew : event ∉ (s.subscribers i).seen) (hvalue : s.valueOf event = some p.value) :
    Moves s (.deliver i event) (s.receive i event (.locking event p))
  | acquire {i : ι} {event : Nat} {p : Payload} (h : (s.subscribers i).phase = .locking event p)
    (hfree : s.store (s.lockOf i p) = none) :
    Moves s (.setNX i false)
      ({ s with store := s.withLock i p (some ⟨(s.subscribers i).owner, 0⟩) }.enter i
        (.handling event p))
  | busy {i : ι} {event : Nat} {p : Payload} {failed : Bool}
    (h : (s.subscribers i).phase = .locking event p) :
    Moves s (.setNX i failed) (s.enter i (.checking event p))
  | own {i : ι} {event : Nat} {p : Payload} (h : (s.subscribers i).phase = .checking event p)
    (hown : (s.store (s.lockOf i p)).map (·.data) = some (s.subscribers i).owner) :
    Moves s (.get i false) (s.enter i (.handling event p))
  | turnDown {i : ι} {event : Nat} {p : Payload} {failed : Bool}
    (h : (s.subscribers i).phase = .checking event p) :
    Moves s (.get i failed) (s.enter i .idle)
  | handle {i : ι} {event : Nat} {p : Payload} {putNext : Bool}
    (h : (s.subscribers i).phase = .handling event p) :
    Moves s (.handle i putNext)
      ({ s with handled := (event, i) :: s.handled }.enter i (.answered event p putNext))
  | next {i : ι} {event : Nat} {p : Payload} {putNext failed : Bool} {store : Store}
    (h : (s.subscribers i).phase = .answered event p putNext)
    (hput : (s.subscribers i).notification.putNotification s.store failed p = some store) :
    Moves s (.putNext i failed) ({ s with store }.enter i .idle)
  | crash {i : ι} {event : Nat} {p : Payload} {putNext failed : Bool}
    (h : (s.subscribers i).phase = .answered event p putNext) :
    Moves s (.putNext i failed) (s.enter i .crashed)
  | keep {i : ι} {event : Nat} {p : Payload} {putNext : Bool}
    (h : (s.subscribers i).phase = .answered event p putNext) :
    Moves s (.unlock i true) (s.enter i .idle)
  | unlock {i : ι} {event : Nat} {p : Payload} {putNext : Bool}
    (h : (s.subscribers i).phase = .answered event p putNext) :
    Moves s (.unlock i false) ({ s with store := s.withLock i p none }.enter i .idle)

section Moves

variable [DecidableEq ι] {s s' : Subscribers ι} {label : SubscriberLabel ι}

/-- Every step has one of the effects. -/
theorem step_moves (h : s.step label = some s') : s.Moves label s' := by
  cases label with
  | put i p =>
    obtain ⟨store, hput, rfl⟩ := Option.map_eq_some_iff.mp h
    exact .put hput
  | expire key =>
    simp only [step] at h
    split at h
    · next item hitem =>
      split at h <;> cases h
      next httl => exact .expire hitem httl
    · cases h
  | deliver i event =>
    simp only [step, deliver] at h
    split at h
    · next hidle =>
      obtain ⟨channel, hchannel, rfl⟩ := Option.map_eq_some_iff.mp h
      split
      · exact .skip hidle.1
      · next p hdecode => exact .receive hidle.1 hidle.2 (by simp [valueOf, hchannel, hdecode])
    · cases h
  | setNX i failed =>
    simp only [step, setNX] at h
    split at h
    · next event p hphase =>
      split at h <;> cases h
      · next hfree =>
        obtain ⟨rfl, hfree⟩ := hfree
        exact .acquire hphase hfree
      · exact .busy hphase
    · cases h
  | get i failed =>
    simp only [step, get] at h
    split at h
    · next event p hphase =>
      split at h <;> cases h
      · next hown =>
        obtain ⟨rfl, hown⟩ := hown
        exact .own hphase hown
      · exact .turnDown hphase
    · cases h
  | handle i putNext =>
    simp only [step] at h
    split at h <;> cases h
    next hphase => exact .handle hphase
  | putNext i failed =>
    simp only [step] at h
    split at h
    · next hphase =>
      split at h
      · split at h <;> cases h
        · exact .crash hphase
        · next hput => exact .next hphase hput
      · cases h
    · cases h
  | unlock i failed =>
    simp only [step] at h
    split at h
    · next hphase =>
      split at h
      · cases h
      · cases failed <;> cases h
        · exact .unlock hphase
        · exact .keep hphase
    · cases h

end Moves

end Subscribers

end Stardust.Redis
