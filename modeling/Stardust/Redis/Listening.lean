import Stardust.Core.Glob
import Stardust.Redis.Subscribers

/-!
# What a subscriber hears

A subscriber hears the expiries on channels that its pattern matches. The pattern is put together
from the prefix and the key as they are, with stars around them, so it also matches channels that
are named after other keys.
-/

namespace Stardust.Redis

open Stardust.Core Function Notification Subscribers

/-- The pattern to which a notification subscribes. -/
def Notification.space (n : Notification) : String :=
  let skey := retryKeyPrefix ++ "-" ++ n.key
  "__key*__:" ++ n.cache.keyPrefix ++ ":" ++ skey ++ "*"

/-- The subscriber of a notification hears what happens to a key. -/
def Notification.hears (n : Notification) (db : Nat) (key : String) : Bool :=
  globMatches n.space (keyspaceChannel db key)

section Hears

variable {n : Notification} {db : Nat}

/-- The prefix and the key have no characters with a meaning in patterns. -/
def Notification.Plain (n : Notification) : Prop :=
  ∀ c ∈ utf8 (n.cache.keyPrefix ++ n.key), Glob.Plain c

/-- A plain subscriber hears the channels in which its prefix and key occur after the colon of a
keyspace. -/
theorem Notification.hears_iff_of_plain (h : n.Plain) (db : Nat) (key : String) :
    n.hears db key = true ↔ ∃ x y, utf8 (keyspaceChannel db key) =
      utf8 "__key" ++ x ++ utf8 ("__:" ++ n.cache.keyPrefix ++ ":retry-" ++ n.key) ++ y := by
  have hplain : ∀ c ∈ utf8 ("__:" ++ n.cache.keyPrefix ++ ":retry-" ++ n.key), Glob.Plain c := by
    have hfixed : (∀ c ∈ utf8 "__:", Glob.Plain c) ∧ ∀ c ∈ utf8 ":retry-", Glob.Plain c := by
      decide +kernel
    simp only [Notification.Plain, utf8_append, List.forall_mem_append] at h ⊢
    exact ⟨⟨⟨hfixed.1, h.1⟩, hfixed.2⟩, h.2⟩
  have hkey : ∀ c ∈ utf8 "__key", Glob.Plain c := by decide +kernel
  have hspace : utf8 n.space = utf8 "__key" ++ Glob.starByte ::
      (utf8 ("__:" ++ n.cache.keyPrefix ++ ":retry-" ++ n.key) ++ Glob.starByte :: []) := by
    have hhead : utf8 "__key*__:" = utf8 "__key" ++ Glob.starByte :: utf8 "__:" := by
      decide +kernel
    have hretry : utf8 ":retry-" = utf8 ":" ++ utf8 retryKeyPrefix ++ utf8 "-" := by
      decide +kernel
    have hstar : utf8 "*" = [Glob.starByte] := by decide +kernel
    simp only [space, utf8_append, hhead, hretry, hstar, List.append_assoc,
      List.cons_append]
  unfold hears globMatches
  rw [hspace, Glob.parse_plain_append hkey, Glob.parse_star, Glob.parse_plain_append hplain,
    Glob.parse_star, Glob.matchItems_bytes]
  simp only [Glob.matchItems_star, Glob.matchItems_bytes]
  constructor
  · rintro ⟨t, ht, x, u, rfl, v, rfl, y, z, rfl, -⟩
    exact ⟨x, y ++ z, by rw [ht]; simp⟩
  · rintro ⟨x, y, hchannel⟩
    refine ⟨_, ?_, x, _, rfl, y, rfl, y, [], (List.append_nil y).symm, rfl⟩
    rw [hchannel, List.append_assoc, List.append_assoc]

/-- A plain subscriber hears all keys that begin with its own. -/
theorem Notification.hears_of_plain (h : n.Plain) (db : Nat) (rest : String) :
    n.hears db (n.cache.expandKey (retryKeyPrefix ++ "-" ++ n.key ++ rest)) = true := by
  have hretry : utf8 ":retry-" = utf8 redisKeySep ++ utf8 retryKeyPrefix ++ utf8 "-" := by
    decide +kernel
  have hspace : utf8 "__keyspace@" = utf8 "__key" ++ utf8 "space@" := by decide +kernel
  refine (hears_iff_of_plain h db _).mpr
    ⟨utf8 ("space@" ++ toString db), utf8 rest, ?_⟩
  simp only [keyspaceChannel, RedisView.expandKey, utf8_append, hretry, hspace, List.append_assoc]

end Hears

/-- The expiry of an entry. -/
structure Expiry where
  key : String
  ttl : Int
  /-- The key of the notification that has put the entry. -/
  putBy : Option String
  deriving DecidableEq

/-- A call of the handler. -/
structure Call where
  event : Nat
  payload : Payload
  putNext : Bool
  deriving DecidableEq

/-- One subscriber, with a record of what has happened. -/
structure Listening where
  base : Subscribers Unit
  /-- The keys of the notifications that have put the entries. -/
  putBy : String → Option String
  /-- One entry for each event. -/
  expiries : List Expiry
  calls : List Call

/-- What happens next. -/
inductive ListeningLabel where
  /-- A step of the subscriber or of Redis. -/
  | own (label : SubscriberLabel Unit)
  /-- Another notification puts a payload. -/
  | foreign (n : Notification) (p : Payload)

variable (base : Subscribers Unit)

namespace Listening

variable {s s' : Listening} {l : ListeningLabel}

/-- The subscriber. -/
def subscriber (s : Listening) : Subscriber := s.base.subscribers ()

/-- The notification that the subscriber has. -/
def notification (s : Listening) : Notification := s.subscriber.notification

/-- Redis works, and passes on only what the pattern matches. -/
def Allowed (s : Listening) : SubscriberLabel Unit → Prop
  | .deliver _ event =>
    ∀ expiry ∈ s.expiries[event]?, s.notification.hears s.base.db expiry.key = true
  | .setNX _ failed | .get _ failed | .putNext _ failed | .unlock _ failed => failed = false
  | .put _ _ | .expire _ | .handle _ _ => True

instance (s : Listening) : (label : SubscriberLabel Unit) → Decidable (s.Allowed label)
  | .deliver _ _ => inferInstanceAs (Decidable (∀ expiry ∈ _, _))
  | .setNX _ failed | .get _ failed | .putNext _ failed | .unlock _ failed =>
    inferInstanceAs (Decidable (failed = false))
  | .put _ _ | .expire _ | .handle _ _ => isTrue trivial

/-- The record after a step. -/
def record (s : Listening) (label : SubscriberLabel Unit) (base : Subscribers Unit) : Listening :=
  match label, s.subscriber.phase with
  | .put _ p, _ | .putNext _ _, .answered _ p _ =>
    { s with
      base
      putBy := update s.putBy (s.notification.waitKey p) (some s.notification.key) }
  | .expire key, _ =>
    let ttl := ((s.base.store key).map Item.ttl).getD 0
    { s with base, expiries := s.expiries ++ [⟨key, ttl, s.putBy key⟩] }
  | .handle _ putNext, .handling event p =>
    { s with base, calls := s.calls ++ [⟨event, p, putNext⟩] }
  | _, _ => { s with base }

/-- One step, with its record. -/
def step (s : Listening) : ListeningLabel → Option Listening
  | .own label => if s.Allowed label then (s.base.step label).map (s.record label) else none
  | .foreign n p =>
    (n.putNotification s.base.store false p).map fun store =>
      { s with
        base := { s.base with store }
        putBy := update s.putBy (n.waitKey p) (some n.key) }

/-- A subscriber begins on any keys. -/
structure Opening (n : Notification) (db : Nat) (s : Listening) : Prop where
  subscriber : ∃ routineID, s.subscriber = ⟨n, routineID, .idle, []⟩
  db : s.base.db = db
  quiet : s.base.events = [] ∧ s.base.handled = []
  unrecorded : s.putBy = (fun _ => none) ∧ s.expiries = [] ∧ s.calls = []

/-- The runs of a subscriber. -/
def listeners (n : Notification) (db : Nat) : System Listening ListeningLabel where
  init := Opening n db
  step := step

/-- The phase of the subscriber. -/
def phase (s : Listening) : SubscriberPhase := s.subscriber.phase

/-- The keys with the entry for a payload. -/
def entered (n : Notification) (p : Payload) (policy : Int) (store : Store) : Store :=
  update store (n.waitKey p) (some ⟨"\x01", policy⟩)

/-- The policy for a payload. -/
def PolicyOf (n : Notification) (p : Payload) (policy : Int) : Prop :=
  0 ≤ p.count ∧ n.policies[p.count.toNat]? = some policy

/-- The steps by their effects. -/
inductive Moves (s : Listening) : ListeningLabel → Listening → Prop
  | put {n : Notification} {p : Payload} {policy : Int} {l : ListeningLabel}
    (hl : l = .foreign n p ∨ l = .own (.put () p) ∧ n = s.notification)
    (hpolicy : PolicyOf n p policy) :
    Moves s l
      { s with
        base := { s.base with store := entered n p policy s.base.store }
        putBy := update s.putBy (n.waitKey p) (some n.key) }
  | expire {key : String} {item : Item} (hitem : s.base.store key = some item)
    (httl : 0 < item.ttl) :
    Moves s (.own (.expire key))
      { s with
        base := { s.base with
          store := update s.base.store key none
          events := s.base.events ++ [keyspaceChannel s.base.db key] }
        expiries := s.expiries ++ [⟨key, item.ttl, s.putBy key⟩] }
  | skip {event : Nat} {channel e : String} (hidle : s.phase = .idle)
    (hnew : event ∉ s.subscriber.seen) (hchannel : s.base.events[event]? = some channel)
    (hheard : ∀ expiry ∈ s.expiries[event]?, s.notification.hears s.base.db expiry.key = true)
    (hdecode : decodePayload channel = .error e) :
    Moves s (.own (.deliver () event)) { s with base := s.base.receive () event .idle }
  | receive {event : Nat} {channel : String} {p : Payload} (hidle : s.phase = .idle)
    (hnew : event ∉ s.subscriber.seen) (hchannel : s.base.events[event]? = some channel)
    (hheard : ∀ expiry ∈ s.expiries[event]?, s.notification.hears s.base.db expiry.key = true)
    (hdecode : decodePayload channel = .ok p) :
    Moves s (.own (.deliver () event))
      { s with base := s.base.receive () event (.locking event ⟨p.count + 1, p.value⟩) }
  | acquire {event : Nat} {p : Payload} (hphase : s.phase = .locking event p)
    (hfree : s.base.store (s.notification.lockKey p.value) = none) :
    Moves s (.own (.setNX () false))
      { s with
        base := { s.base with
          store := s.base.withLock () p (some ⟨s.subscriber.owner, 0⟩) }.enter ()
            (.handling event p) }
  | busy {event : Nat} {p : Payload} (hphase : s.phase = .locking event p)
    (hheld : s.base.store (s.notification.lockKey p.value) ≠ none) :
    Moves s (.own (.setNX () false)) { s with base := s.base.enter () (.checking event p) }
  | keep {event : Nat} {p : Payload} (hphase : s.phase = .checking event p)
    (hown : (s.base.store (s.notification.lockKey p.value)).map (·.data) =
      some s.subscriber.owner) :
    Moves s (.own (.get () false)) { s with base := s.base.enter () (.handling event p) }
  | turnDown {event : Nat} {p : Payload} (hphase : s.phase = .checking event p)
    (hother : (s.base.store (s.notification.lockKey p.value)).map (·.data) ≠
      some s.subscriber.owner) :
    Moves s (.own (.get () false)) { s with base := s.base.enter () .idle }
  | handle {event : Nat} {p : Payload} {putNext : Bool} (hphase : s.phase = .handling event p) :
    Moves s (.own (.handle () putNext))
      { s with
        base := { s.base with handled := (event, ()) :: s.base.handled }.enter ()
          (.answered event p putNext)
        calls := s.calls ++ [⟨event, p, putNext⟩] }
  | next {event : Nat} {p : Payload} {putNext : Bool} {policy : Int}
    (hphase : s.phase = .answered event p putNext)
    (hagain : again s.notification p putNext = true)
    (hpolicy : PolicyOf s.notification p policy) :
    Moves s (.own (.putNext () false))
      { s with
        base := { s.base with store := entered s.notification p policy s.base.store }.enter () .idle
        putBy := update s.putBy (s.notification.waitKey p) (some s.notification.key) }
  | crash {event : Nat} {p : Payload} {putNext : Bool}
    (hphase : s.phase = .answered event p putNext)
    (hagain : again s.notification p putNext = true)
    (hnone : ∀ policy, ¬PolicyOf s.notification p policy) :
    Moves s (.own (.putNext () false))
      { s with
        base := s.base.enter () .crashed
        putBy := update s.putBy (s.notification.waitKey p) (some s.notification.key) }
  | unlock {event : Nat} {p : Payload} {putNext : Bool}
    (hphase : s.phase = .answered event p putNext)
    (hagain : again s.notification p putNext = false) :
    Moves s (.own (.unlock () false))
      { s with base := { s.base with store := s.base.withLock () p none }.enter () .idle }

section Moves

/-- A put enters the payload under its policy. -/
theorem putNotification_eq_some {n : Notification} {store store' : Store} {p : Payload} :
    n.putNotification store false p = some store' ↔
      ∃ policy, PolicyOf n p policy ∧ store' = entered n p policy store := by
  unfold putNotification PolicyOf entered
  by_cases hcount : p.count < 0
  · rw [if_pos hcount]
    refine iff_of_false nofun ?_
    rintro ⟨policy, ⟨hle, -⟩, -⟩
    exact absurd hcount (Int.not_lt.mpr hle)
  · simp only [if_neg hcount, Int.not_lt.mp hcount, Option.map_eq_some_iff, true_and,
      Bool.false_eq_true, if_false, eq_comm]

private theorem putNotification_of_policy {n : Notification} {p : Payload} {policy : Int}
    (h : PolicyOf n p policy) (store : Store) :
    n.putNotification store false p = some (entered n p policy store) :=
  putNotification_eq_some.mpr ⟨policy, h, rfl⟩

private theorem putNotification_eq_none {n : Notification} {store : Store} {p : Payload} :
    n.putNotification store false p = none ↔ ∀ policy, ¬PolicyOf n p policy := by
  rw [Option.eq_none_iff_forall_ne_some]
  simp only [ne_eq, putNotification_eq_some]
  grind

/-- Every step is one of the moves. -/
theorem step_moves (h : s.step l = some s') : s.Moves l s' := by
  cases l with
  | foreign n p =>
    obtain ⟨store, hput, rfl⟩ := Option.map_eq_some_iff.mp h
    obtain ⟨policy, hpolicy, rfl⟩ := putNotification_eq_some.mp hput
    exact .put (.inl rfl) hpolicy
  | own label =>
    simp only [step] at h
    split_ifs at h with hallowed
    obtain ⟨base, hstep, rfl⟩ := Option.map_eq_some_iff.mp h
    cases label with
    | put i p =>
      obtain ⟨store, hput, rfl⟩ := Option.map_eq_some_iff.mp hstep
      obtain ⟨policy, hpolicy, rfl⟩ := putNotification_eq_some.mp hput
      exact .put (.inr ⟨rfl, rfl⟩) hpolicy
    | expire key =>
      simp only [Subscribers.step] at hstep
      split at hstep
      · next item hitem =>
        split_ifs at hstep with httl
        cases hstep
        have hrecord := Moves.expire hitem httl
        simpa [record, hitem] using hrecord
      · cases hstep
    | deliver i event =>
      simp only [Subscribers.step, Subscribers.deliver] at hstep
      split_ifs at hstep with hidle
      obtain ⟨channel, hchannel, rfl⟩ := Option.map_eq_some_iff.mp hstep
      cases hdecode : decodePayload channel with
      | error e => exact .skip hidle.1 hidle.2 hchannel hallowed hdecode
      | ok p => exact .receive hidle.1 hidle.2 hchannel hallowed hdecode
    | setNX i failed =>
      obtain rfl : failed = false := hallowed
      simp only [Subscribers.step, Subscribers.setNX] at hstep
      split at hstep
      · next event p hphase =>
        split_ifs at hstep with hfree
        · cases hstep
          exact .acquire hphase hfree.2
        · cases hstep
          exact .busy hphase fun hnone => hfree ⟨trivial, hnone⟩
      · cases hstep
    | get i failed =>
      obtain rfl : failed = false := hallowed
      simp only [Subscribers.step, Subscribers.get] at hstep
      split at hstep
      · next event p hphase =>
        split_ifs at hstep with hown
        · cases hstep
          exact .keep hphase hown.2
        · cases hstep
          exact .turnDown hphase fun hdata => hown ⟨trivial, hdata⟩
      · cases hstep
    | handle i putNext =>
      simp only [Subscribers.step] at hstep
      split at hstep
      · next event p hphase =>
        cases hstep
        have hphase' : s.subscriber.phase = .handling event p := hphase
        simp only [record, hphase']
        exact .handle hphase
      · cases hstep
    | putNext i failed =>
      obtain rfl : failed = false := hallowed
      simp only [Subscribers.step] at hstep
      split at hstep
      · next event p putNext hphase =>
        have hphase' : s.subscriber.phase = .answered event p putNext := hphase
        simp only [record, hphase']
        split_ifs at hstep with hagain
        split at hstep
        · next hnone =>
          cases hstep
          exact .crash hphase hagain (putNotification_eq_none.mp hnone)
        · next store hput =>
          cases hstep
          obtain ⟨policy, hpolicy, rfl⟩ := putNotification_eq_some.mp hput
          exact .next hphase hagain hpolicy
      · cases hstep
    | unlock i failed =>
      obtain rfl : failed = false := hallowed
      simp only [Subscribers.step] at hstep
      split at hstep
      · next event p putNext hphase =>
        simp only [Bool.false_eq_true, if_false] at hstep
        split_ifs at hstep with hagain
        cases hstep
        exact .unlock hphase (eq_false_of_ne_true hagain)
      · cases hstep

private theorem step_own {label : SubscriberLabel Unit} {base : Subscribers Unit}
    (hallowed : s.Allowed label) (hstep : s.base.step label = some base) :
    s.step (.own label) = some (s.record label base) := by
  rw [step, if_pos hallowed, hstep]
  rfl

/-- Every effect is that of a step. -/
theorem step_of_moves (h : s.Moves l s') : s.step l = some s' := by
  cases h with
  | @put n p policy _ hl hpolicy =>
    have hput := putNotification_of_policy hpolicy s.base.store
    rcases hl with rfl | ⟨rfl, rfl⟩
    · rw [step, hput]
      rfl
    · have hstep : s.base.step (.put () p) =
          (s.notification.putNotification s.base.store false p).map fun store =>
            { s.base with store } := rfl
      rw [hput] at hstep
      exact step_own trivial hstep
  | @expire key item hitem httl =>
    have hstep : s.base.step (.expire key) = some { s.base with
        store := update s.base.store key none
        events := s.base.events ++ [keyspaceChannel s.base.db key] } := by
      simp only [Subscribers.step, hitem, if_pos httl]
    have hallowed : s.Allowed (.expire key) := trivial
    rw [step_own hallowed hstep]
    simp only [record, hitem]
    rfl
  | @skip event channel e hidle hnew hchannel hheard hdecode =>
    have hstep : s.base.step (.deliver () event) = some (s.base.receive () event .idle) := by
      simp only [Subscribers.step, Subscribers.deliver]
      rw [if_pos ⟨hidle, hnew⟩, hchannel]
      simp only [Option.map_some, hdecode]
    exact step_own hheard hstep
  | @receive event channel p hidle hnew hchannel hheard hdecode =>
    have hstep : s.base.step (.deliver () event) =
        some (s.base.receive () event (.locking event ⟨p.count + 1, p.value⟩)) := by
      simp only [Subscribers.step, Subscribers.deliver]
      rw [if_pos ⟨hidle, hnew⟩, hchannel]
      simp only [Option.map_some, hdecode]
    exact step_own hheard hstep
  | @acquire event p hphase hfree =>
    have hphase : (s.base.subscribers ()).phase = .locking event p := hphase
    have hstep : s.base.step (.setNX () false) = some ({ s.base with
        store := s.base.withLock () p (some ⟨s.subscriber.owner, 0⟩) }.enter ()
          (.handling event p)) := by
      simp only [Subscribers.step, Subscribers.setNX, hphase]
      exact if_pos ⟨trivial, hfree⟩
    exact step_own rfl hstep
  | @busy event p hphase hheld =>
    have hphase : (s.base.subscribers ()).phase = .locking event p := hphase
    have hstep : s.base.step (.setNX () false) = some (s.base.enter () (.checking event p)) := by
      simp only [Subscribers.step, Subscribers.setNX, hphase]
      exact if_neg fun hfree => hheld hfree.2
    exact step_own rfl hstep
  | @keep event p hphase hown =>
    have hphase : (s.base.subscribers ()).phase = .checking event p := hphase
    have hstep : s.base.step (.get () false) = some (s.base.enter () (.handling event p)) := by
      simp only [Subscribers.step, Subscribers.get, hphase]
      exact if_pos ⟨trivial, hown⟩
    exact step_own rfl hstep
  | @turnDown event p hphase hother =>
    have hphase : (s.base.subscribers ()).phase = .checking event p := hphase
    have hstep : s.base.step (.get () false) = some (s.base.enter () .idle) := by
      simp only [Subscribers.step, Subscribers.get, hphase]
      exact if_neg fun hown => hother hown.2
    exact step_own rfl hstep
  | @handle event p putNext hphase =>
    have hphase : (s.base.subscribers ()).phase = .handling event p := hphase
    have hstep : s.base.step (.handle () putNext) = some ({ s.base with
        handled := (event, ()) :: s.base.handled }.enter () (.answered event p putNext)) := by
      simp only [Subscribers.step, hphase]
    have hallowed : s.Allowed (.handle () putNext) := trivial
    rw [step_own hallowed hstep]
    simp only [record, subscriber, hphase]
  | @next event p putNext policy hphase hagain hpolicy =>
    have hphase : (s.base.subscribers ()).phase = .answered event p putNext := hphase
    have hput := putNotification_of_policy hpolicy s.base.store
    have hstep : s.base.step (.putNext () false) = some ({ s.base with
        store := entered s.notification p policy s.base.store }.enter () .idle) := by
      simp only [Subscribers.step, hphase]
      refine (if_pos hagain).trans ?_
      simp only [notification, subscriber] at hput
      simp only [hput]
      rfl
    have hallowed : s.Allowed (.putNext () false) := rfl
    rw [step_own hallowed hstep]
    simp only [record, subscriber, hphase]
  | @crash event p putNext hphase hagain hnone =>
    have hphase : (s.base.subscribers ()).phase = .answered event p putNext := hphase
    have hput : s.notification.putNotification s.base.store false p = none :=
      putNotification_eq_none.mpr hnone
    have hstep : s.base.step (.putNext () false) = some (s.base.enter () .crashed) := by
      simp only [Subscribers.step, hphase]
      refine (if_pos hagain).trans ?_
      simp only [notification, subscriber] at hput
      simp only [hput]
    have hallowed : s.Allowed (.putNext () false) := rfl
    rw [step_own hallowed hstep]
    simp only [record, subscriber, hphase]
  | @unlock event p putNext hphase hagain =>
    have hphase : (s.base.subscribers ()).phase = .answered event p putNext := hphase
    have hstep : s.base.step (.unlock () false) = some ({ s.base with
        store := s.base.withLock () p none }.enter () .idle) := by
      simp only [Subscribers.step, hphase]
      exact if_neg fun h => Bool.false_ne_true (hagain.symm.trans h)
    exact step_own rfl hstep

/-- No step changes the notification, the database or the name of the owner. -/
theorem Moves.frame (h : s.Moves l s') :
    s'.notification = s.notification ∧ s'.base.db = s.base.db ∧
      s'.subscriber.owner = s.subscriber.owner := by
  cases h <;> refine ⟨?_, rfl, ?_⟩ <;>
    simp [notification, subscriber, Subscribers.enter, Subscribers.receive, Subscriber.owner]

/-- What has expired stays on record. -/
theorem Moves.expiries_grow (h : s.Moves l s') (event : Nat) (expiry : Expiry)
    (hexpiry : s.expiries[event]? = some expiry) : s'.expiries[event]? = some expiry := by
  cases h with
  | expire hitem httl =>
    obtain ⟨hlt, -⟩ := List.getElem?_eq_some_iff.mp hexpiry
    exact (List.getElem?_append_left hlt).trans hexpiry
  | _ => exact hexpiry

end Moves

/-- What the record tells about the events, and that the subscriber works only on what it hears. -/
structure Recorded (n : Notification) (db : Nat) (s : Listening) : Prop where
  notification : s.notification = n
  database : s.base.db = db
  events : s.base.events = s.expiries.map fun expiry => keyspaceChannel db expiry.key
  job : ∀ event p, s.phase.job = some (event, p) →
    ∃ expiry, s.expiries[event]? = some expiry ∧ n.hears db expiry.key = true
  decoded : ∀ event p, s.phase.job = some (event, p) → Decoded p.value
  seen : ∀ event ∈ s.subscriber.seen, event < s.expiries.length
  calls : ∀ call ∈ s.calls,
    ∃ expiry, s.expiries[call.event]? = some expiry ∧ n.hears db expiry.key = true

section Recorded

variable {n : Notification} {db : Nat}

/-- At the start there is nothing to record. -/
theorem recorded_of_opening (h : s.Opening n db) : s.Recorded n db := by
  obtain ⟨routineID, hsubscriber⟩ := h.subscriber
  have hidle : s.phase = .idle := by rw [Listening.phase, hsubscriber]
  refine ⟨by rw [Listening.notification, hsubscriber], h.db, ?_, ?_, ?_, ?_, ?_⟩
  · rw [h.quiet.1, h.unrecorded.2.1]
    rfl
  · rw [hidle]
    exact nofun
  · rw [hidle]
    exact nofun
  · rw [hsubscriber]
    exact nofun
  · rw [h.unrecorded.2.2]
    exact nofun

@[simp] theorem subscriber_enter (phase : SubscriberPhase) (putBy : String → Option String)
    (expiries : List Expiry) (calls : List Call) :
    (Listening.mk (base.enter () phase) putBy expiries calls).subscriber =
      { base.subscribers () with phase } := by
  simp [subscriber, enter]

@[simp] theorem subscriber_receive (event : Nat) (phase : SubscriberPhase)
    (putBy : String → Option String) (expiries : List Expiry) (calls : List Call) :
    (Listening.mk (base.receive () event phase) putBy expiries calls).subscriber =
      { base.subscribers () with phase, seen := event :: (base.subscribers ()).seen } := by
  simp [subscriber, receive]

@[simp] theorem phase_enter (phase : SubscriberPhase) (putBy : String → Option String)
    (expiries : List Expiry) (calls : List Call) :
    (Listening.mk (base.enter () phase) putBy expiries calls).phase = phase := by
  rw [Listening.phase, subscriber_enter]

@[simp] theorem phase_receive (event : Nat) (phase : SubscriberPhase)
    (putBy : String → Option String) (expiries : List Expiry) (calls : List Call) :
    (Listening.mk (base.receive () event phase) putBy expiries calls).phase = phase := by
  rw [Listening.phase, subscriber_receive]

/-- An event is the expiry of a key. -/
theorem Recorded.expiry_of_event (h : s.Recorded n db) {event : Nat} {channel : String}
    (hchannel : s.base.events[event]? = some channel) :
    ∃ expiry, s.expiries[event]? = some expiry ∧ keyspaceChannel db expiry.key = channel := by
  rw [h.events, List.getElem?_map] at hchannel
  exact Option.map_eq_some_iff.mp hchannel

/-- An event that is received is heard. -/
theorem Recorded.heard (h : s.Recorded n db) {event : Nat}
    (hheard : ∀ expiry ∈ s.expiries[event]?, s.notification.hears s.base.db expiry.key = true)
    {expiry : Expiry} (hexpiry : s.expiries[event]? = some expiry) :
    n.hears db expiry.key = true := by
  rw [← h.notification, ← h.database]
  exact hheard expiry hexpiry

/-- The subscriber goes on to a phase without a job or with the same. -/
theorem Recorded.enter (h : s.Recorded n db) (store : Store) (handled : List (Nat × Unit))
    (putBy : String → Option String) {phase : SubscriberPhase} {calls : List Call}
    (hjob : ∀ job, phase.job = some job → s.phase.job = some job)
    (hcalls : ∀ call ∈ calls,
      ∃ expiry, s.expiries[call.event]? = some expiry ∧ n.hears db expiry.key = true) :
    Recorded n db ⟨{ s.base with store, handled }.enter () phase, putBy, s.expiries, calls⟩ := by
  refine ⟨?_, h.database, h.events, fun event p hp => ?_, fun event p hp => ?_, ?_, hcalls⟩
  · rw [Listening.notification, subscriber_enter]
    exact h.notification
  · rw [phase_enter] at hp
    exact h.job event p (hjob _ hp)
  · rw [phase_enter] at hp
    exact h.decoded event p (hjob _ hp)
  · rw [subscriber_enter]
    exact h.seen

/-- The subscriber receives an event. -/
theorem Recorded.receive (h : s.Recorded n db) {event : Nat} {channel : String}
    {phase : SubscriberPhase} (hchannel : s.base.events[event]? = some channel)
    (hheard : ∀ expiry ∈ s.expiries[event]?, s.notification.hears s.base.db expiry.key = true)
    (hjob : ∀ event' p, phase.job = some (event', p) → event' = event ∧ Decoded p.value) :
    Recorded n db { s with base := s.base.receive () event phase } := by
  obtain ⟨expiry, hexpiry, -⟩ := h.expiry_of_event hchannel
  refine ⟨?_, h.database, h.events, fun event' p hp => ?_, fun event' p hp => ?_, ?_, h.calls⟩
  · rw [Listening.notification, subscriber_receive]
    exact h.notification
  · rw [phase_receive] at hp
    obtain ⟨rfl, -⟩ := hjob event' p hp
    exact ⟨expiry, hexpiry, h.heard hheard hexpiry⟩
  · rw [phase_receive] at hp
    exact (hjob event' p hp).2
  · rw [subscriber_receive]
    obtain ⟨hlt, -⟩ := List.getElem?_eq_some_iff.mp hexpiry
    exact List.forall_mem_cons.mpr ⟨hlt, h.seen⟩

/-- An entry has expired. -/
theorem Recorded.expire (h : s.Recorded n db) (store : Store) (key : String) (ttl : Int)
    (putBy : Option String) :
    Recorded n db { s with
      base := { s.base with
        store, events := s.base.events ++ [keyspaceChannel s.base.db key] }
      expiries := s.expiries ++ [⟨key, ttl, putBy⟩] } := by
  have hlater : ∀ {event : Nat},
      (∃ expiry, s.expiries[event]? = some expiry ∧ n.hears db expiry.key = true) →
      ∃ expiry, (s.expiries ++ [⟨key, ttl, putBy⟩])[event]? = some expiry ∧
        n.hears db expiry.key = true := by
    rintro event ⟨expiry, hexpiry, hheard⟩
    obtain ⟨hlt, -⟩ := List.getElem?_eq_some_iff.mp hexpiry
    exact ⟨expiry, (List.getElem?_append_left hlt).trans hexpiry, hheard⟩
  refine ⟨h.notification, h.database, ?_, fun event p hjob => hlater (h.job event p hjob),
    h.decoded, fun event hevent => ?_, fun call hcall => hlater (h.calls call hcall)⟩
  · simp [h.events, h.database]
  · rw [List.length_append]
    exact Nat.lt_add_right _ (h.seen event hevent)

/-- Every step keeps the record. -/
theorem Recorded.step (h : s.Recorded n db) (hstep : s.step l = some s') : s'.Recorded n db := by
  cases step_moves hstep with
  | put hl hpolicy =>
    exact ⟨h.notification, h.database, h.events, h.job, h.decoded, h.seen, h.calls⟩
  | expire hitem httl => exact h.expire _ _ _ _
  | skip hidle hnew hchannel hheard hdecode => exact h.receive hchannel hheard nofun
  | receive hidle hnew hchannel hheard hdecode =>
    refine h.receive hchannel hheard fun event' p' hjob => ?_
    have hdecoded := decoded_of_decodePayload hdecode
    cases hjob
    exact ⟨rfl, hdecoded⟩
  | acquire hphase hfree =>
    refine h.enter _ _ _ (fun job hjob => ?_) h.calls
    rw [hphase]
    exact hjob
  | busy hphase hheld =>
    refine h.enter _ _ _ (fun job hjob => ?_) h.calls
    rw [hphase]
    exact hjob
  | keep hphase hown =>
    refine h.enter _ _ _ (fun job hjob => ?_) h.calls
    rw [hphase]
    exact hjob
  | turnDown hphase hother => exact h.enter _ _ _ nofun h.calls
  | @handle event p putNext hphase =>
    have hjob : s.phase.job = some (event, p) := by rw [hphase]; rfl
    refine h.enter _ _ _ (fun job hjob' => hjob.trans hjob') ?_
    exact List.forall_mem_append.mpr ⟨h.calls, List.forall_mem_singleton.mpr (h.job event p hjob)⟩
  | next hphase hagain hpolicy => exact h.enter _ _ _ nofun h.calls
  | crash hphase hagain hnone => exact h.enter _ _ _ nofun h.calls
  | unlock hphase hagain => exact h.enter _ _ _ nofun h.calls

end Recorded

end Listening

end Stardust.Redis
