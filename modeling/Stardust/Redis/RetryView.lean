import Stardust.Redis.Isolation

/-!
# All that concerns one value

All that concerns one value is in the entries that announce it, the events that are yet to be
received, what the subscriber is busy with, the lock, and the calls for it. A step has one of a few
effects on these, or leaves them alone.
-/

namespace Stardust.Redis

open Stardust.Core Function

namespace Listening

variable {n : Notification} {db : Nat} {value : String} {s s' : Listening} {l : ListeningLabel}

/-- The subscriber hears the expiry of a key and decodes the value from it. -/
def Announces (n : Notification) (db : Nat) (value key : String) : Prop :=
  n.hears db key = true ∧ ∃ p, decodePayload (keyspaceChannel db key) = .ok p ∧ p.value = value

/-- An event with the value is yet to be received. -/
def Pending (n : Notification) (db : Nat) (value : String) (s : Listening) (event : Nat) : Prop :=
  event ∉ s.subscriber.seen ∧
    ∃ expiry, s.expiries[event]? = some expiry ∧ Announces n db value expiry.key

/-- The phase of a subscriber that is busy with the value. -/
def busyPhase (value : String) (phase : SubscriberPhase) : Option SubscriberPhase :=
  if phase.job.map (fun job => job.2.value) = some value then some phase else none

/-- The calls of the handler for the value. -/
def callsFor (value : String) (s : Listening) : List Call :=
  s.calls.filter fun call => call.payload.value = value

/-- No other chain for the value is begun. -/
def Other (n : Notification) (db : Nat) (value : String) : ListeningLabel → Prop
  | .own (.put _ p) => ¬Announces n db value (n.waitKey p)
  | .foreign n' p => ¬Announces n db value (n'.waitKey p)
  | _ => True

/-- All that concerns the value. -/
structure View where
  /-- The entries that announce it. -/
  entry : String → Option Item
  pending : Nat → Prop
  phase : Option SubscriberPhase
  lock : Option Item
  calls : List Call

/-- The view shows what the state holds about the value. -/
structure Sees (n : Notification) (db : Nat) (value : String) (s : Listening) (v : View) :
    Prop where
  entries : ∀ key, Announces n db value key → s.base.store key = v.entry key
  events : ∀ event, Pending n db value s event ↔ v.pending event
  phase : busyPhase value s.phase = v.phase
  lock : s.base.store (n.lockKey value) = v.lock
  calls : callsFor value s = v.calls

section Keys

variable {n' : Notification} {w : String} {p : Payload}

/-- No entry is in the place of a lock. -/
theorem waitKey_ne_lockKey_of_decoded (hw : Decoded w) : n'.waitKey p ≠ n.lockKey w := by
  intro heq
  obtain ⟨before, hwait⟩ := n'.toList_waitChannel 0 p
  obtain ⟨q, hok⟩ := decodePayload_encodePayload_ok hwait
  obtain ⟨before', hlock⟩ := n.toList_lockChannel 0 w
  rw [heq, hw.decodePayload_value hlock] at hok
  cases hok

/-- A lock announces nothing. -/
theorem not_announces_lockKey (hw : Decoded w) : ¬Announces n db value (n'.lockKey w) := by
  rintro ⟨-, q, hok, -⟩
  obtain ⟨before, hlock⟩ := n'.toList_lockChannel db w
  rw [hw.decodePayload_value hlock] at hok
  cases hok

/-- The entry for another decoded value announces that. -/
theorem not_announces_waitKey (hw : Decoded w) (hne : w ≠ value) (count : Int) :
    ¬Announces n db value (n'.waitKey ⟨count, w⟩) := by
  rintro ⟨-, q, hok, hq⟩
  obtain ⟨before, hwait⟩ := n'.toList_waitChannel db ⟨count, w⟩
  rw [hw.decodePayload_encodePayload hwait] at hok
  cases hok
  exact hne hq

end Keys

private theorem busyPhase_of_ne {phase : SubscriberPhase} {event : Nat} {p : Payload}
    (hjob : phase.job = some (event, p)) (hne : p.value ≠ value) :
    busyPhase value phase = none := by
  rw [busyPhase, hjob]
  exact if_neg fun h => hne (Option.some.inj h)

/-- The loop is busy with the value. -/
theorem busyPhase_of_eq {phase : SubscriberPhase} {event : Nat} {p : Payload}
    (hjob : phase.job = some (event, p)) (heq : p.value = value) :
    busyPhase value phase = some phase := by
  rw [busyPhase, hjob]
  exact if_pos (congrArg some heq)

/-- An idle loop is busy with nothing. -/
theorem busyPhase_of_none {phase : SubscriberPhase} (hjob : phase.job = none) :
    busyPhase value phase = none := by
  rw [busyPhase, hjob]
  exact if_neg nofun

/-- What a step does to all that concerns the value. -/
inductive Effect (n : Notification) (db : Nat) (value : String) (s s' : Listening) (v : View) :
    View → Prop
  | same : Effect n db value s s' v v
  | expired {key : String} {item : Item} {event : Nat} {putBy : Option String}
    (hkey : Announces n db value key) (hentry : v.entry key = some item)
    (hexpiry : s'.expiries[event]? = some ⟨key, item.ttl, putBy⟩) :
    Effect n db value s s' v
      { v with
        entry := update v.entry key none
        pending := fun e => v.pending e ∨ e = event }
  | received {event : Nat} {expiry : Expiry} {p : Payload} (hphase : v.phase = none)
    (hpending : v.pending event) (hexpiry : s.expiries[event]? = some expiry)
    (hdecode : decodePayload (keyspaceChannel db expiry.key) = .ok p) :
    Effect n db value s s' v
      { v with
        pending := fun e => v.pending e ∧ e ≠ event
        phase := some (.locking event ⟨p.count + 1, p.value⟩) }
  | acquired {event : Nat} {p : Payload} (hphase : v.phase = some (.locking event p))
    (hlock : v.lock = none) :
    Effect n db value s s' v
      { v with phase := some (.handling event p), lock := some ⟨s.subscriber.owner, 0⟩ }
  | busy {event : Nat} {p : Payload} (hphase : v.phase = some (.locking event p))
    (hlock : v.lock ≠ none) :
    Effect n db value s s' v { v with phase := some (.checking event p) }
  | kept {event : Nat} {p : Payload} (hphase : v.phase = some (.checking event p)) :
    Effect n db value s s' v { v with phase := some (.handling event p) }
  | turnedDown {event : Nat} {p : Payload} (hphase : v.phase = some (.checking event p))
    (hlock : v.lock.map (·.data) ≠ some s.subscriber.owner) :
    Effect n db value s s' v { v with phase := none }
  | handled {event : Nat} {p : Payload} {putNext : Bool}
    (hphase : v.phase = some (.handling event p)) :
    Effect n db value s s' v
      { v with
        phase := some (.answered event p putNext)
        calls := v.calls ++ [⟨event, p, putNext⟩] }
  | next {event : Nat} {p : Payload} {putNext : Bool} {policy : Int}
    (hphase : v.phase = some (.answered event p putNext))
    (hagain : Subscribers.again n p putNext = true) (hpolicy : PolicyOf n p policy) :
    Effect n db value s s' v
      { v with
        phase := none
        entry := update v.entry (n.waitKey p) (some ⟨"\x01", policy⟩) }
  | crashed {event : Nat} {p : Payload} {putNext : Bool}
    (hphase : v.phase = some (.answered event p putNext))
    (hagain : Subscribers.again n p putNext = true) (hnone : ∀ policy, ¬PolicyOf n p policy) :
    Effect n db value s s' v { v with phase := none }
  | unlocked {event : Nat} {p : Payload} {putNext : Bool}
    (hphase : v.phase = some (.answered event p putNext))
    (hagain : Subscribers.again n p putNext = false) :
    Effect n db value s s' v { v with phase := none, lock := none }

section Effects

variable {v v' : View} {phase : SubscriberPhase} {event : Nat} {p : Payload}

/-- A subscriber that is busy with a payload of the value. -/
theorem Sees.phase_of_eq (h : s.Sees n db value v) (hphase : s.phase = phase)
    (hjob : phase.job = some (event, p)) (heq : p.value = value) : v.phase = some phase := by
  rw [← h.phase, hphase, busyPhase_of_eq hjob heq]

/-- A subscriber that is busy with a payload of another value. -/
theorem Sees.phase_of_ne (h : s.Sees n db value v) (hphase : s.phase = phase)
    (hjob : phase.job = some (event, p)) (hne : p.value ≠ value) : v.phase = none := by
  rw [← h.phase, hphase, busyPhase_of_ne hjob hne]

private theorem pending_enter (base : Subscribers Unit) (phase : SubscriberPhase)
    (putBy : String → Option String) (calls : List Call) (event : Nat)
    (hbase : base.subscribers = s.base.subscribers) :
    Pending n db value ⟨base.enter () phase, putBy, s.expiries, calls⟩ event ↔
      Pending n db value s event := by
  rw [Pending, subscriber_enter, hbase]
  rfl

private theorem pending_receive (phase : SubscriberPhase) (event e : Nat) :
    Pending n db value { s with base := s.base.receive () event phase } e ↔
      Pending n db value s e ∧ e ≠ event := by
  simp only [Pending, subscriber_receive, List.mem_cons, not_or]
  constructor
  · rintro ⟨⟨hne, hseen⟩, hexpiry⟩
    exact ⟨⟨hseen, hexpiry⟩, hne⟩
  · rintro ⟨⟨hseen, hexpiry⟩, hne⟩
    exact ⟨⟨hne, hseen⟩, hexpiry⟩

/-- The subscriber goes on, and all that concerns the value is as given. -/
theorem Sees.enter (h : s.Sees n db value v) (store : Store) (handled : List (Nat × Unit))
    (putBy : String → Option String) {calls : List Call} (hpending : v'.pending = v.pending)
    (hentries : ∀ key, Announces n db value key → store key = v'.entry key)
    (hphase : busyPhase value phase = v'.phase) (hlock : store (n.lockKey value) = v'.lock)
    (hcalls : calls.filter (fun call => call.payload.value = value) = v'.calls) :
    Sees n db value ⟨{ s.base with store, handled }.enter () phase, putBy, s.expiries, calls⟩
      v' := by
  refine ⟨hentries, fun e => ?_, ?_, hlock, hcalls⟩
  · refine (pending_enter { s.base with store, handled } phase putBy calls e rfl).trans ?_
    rw [h.events, hpending]
  · rw [phase_enter, hphase]

/-- The subscriber goes on with another value, which leaves the keys for this one alone. -/
theorem Sees.enter_other (h : s.Sees n db value v) (store : Store) (handled : List (Nat × Unit))
    (putBy : String → Option String) {calls : List Call}
    (hstore : ∀ key, Announces n db value key ∨ key = n.lockKey value →
      store key = s.base.store key)
    (hnone : v.phase = none) (hphase : busyPhase value phase = none)
    (hcalls : calls.filter (fun call => call.payload.value = value) = callsFor value s) :
    Sees n db value ⟨{ s.base with store, handled }.enter () phase, putBy, s.expiries, calls⟩
      v := by
  refine h.enter store handled putBy rfl (fun key hkey => ?_) (hphase.trans hnone.symm) ?_
    (hcalls.trans h.calls)
  · rw [hstore key (.inl hkey), h.entries key hkey]
  · rw [hstore _ (.inr rfl), h.lock]

private theorem Recorded.withLock_eq (h : s.Recorded n db) (p : Payload) (item : Option Item) :
    s.base.withLock () p item = update s.base.store (n.lockKey p.value) item := by
  rw [← h.notification]
  rfl

private theorem Recorded.decoded_of_phase (h : s.Recorded n db) (hphase : s.phase = phase)
    (hjob : phase.job = some (event, p)) : Decoded p.value :=
  h.decoded event p (by rw [hphase]; exact hjob)

section Keys

variable {key w : String}

/-- A lock is no entry. -/
theorem update_lockKey_of_announces (hw : Decoded w) (store : Store) (item : Option Item)
    (hkey : Announces n db value key) :
    update store (n.lockKey w) item key = store key := by
  refine update_of_ne ?_ _ _
  rintro rfl
  exact not_announces_lockKey hw hkey

/-- The lock for a value is none of the keys of another one. -/
theorem update_lockKey_of_ne (hw : Decoded w) (hne : w ≠ value) (store : Store)
    (item : Option Item) (hkey : Announces n db value key ∨ key = n.lockKey value) :
    update store (n.lockKey w) item key = store key := by
  rcases hkey with hkey | rfl
  · exact update_lockKey_of_announces hw store item hkey
  · exact update_of_ne (fun heq => hne (Notification.lockKey_inj.mp heq).symm) _ _

/-- An entry that does not announce the value is none of its keys. -/
theorem entered_of_not_announces (hvalue : Decoded value) {n' : Notification}
    (hnot : ¬Announces n db value (n'.waitKey p)) (policy : Int) (store : Store)
    (hkey : Announces n db value key ∨ key = n.lockKey value) :
    entered n' p policy store key = store key := by
  apply update_of_ne
  rcases hkey with hkey | rfl
  · rintro rfl
    exact hnot hkey
  · exact fun heq => waitKey_ne_lockKey_of_decoded hvalue heq.symm

end Keys

section Cases

private theorem effect_put (h : s.Sees n db value v) (hvalue : Decoded value) {n' : Notification}
    (hnot : ¬Announces n db value (n'.waitKey p)) (policy : Int) (putBy : String → Option String) :
    Sees n db value
      { s with base := { s.base with store := entered n' p policy s.base.store }, putBy } v := by
  refine ⟨fun key hkey => ?_, h.events, h.phase, ?_, h.calls⟩
  · rw [← h.entries key hkey]
    exact entered_of_not_announces hvalue hnot policy s.base.store (.inl hkey)
  · rw [← h.lock]
    exact entered_of_not_announces hvalue hnot policy s.base.store (.inr rfl)

/-- An expiry is pending afterwards if it announces the value. -/
theorem pending_expire (hrec : s.Recorded n db) (base : Subscribers Unit)
    (hbase : base.subscribers = s.base.subscribers) (expiry : Expiry) (e : Nat) :
    Pending n db value { s with base, expiries := s.expiries ++ [expiry] } e ↔
      Pending n db value s e ∨ e = s.expiries.length ∧ Announces n db value expiry.key := by
  have hseen : ({ s with base, expiries := s.expiries ++ [expiry] } : Listening).subscriber.seen =
      s.subscriber.seen := by
    simp only [subscriber, hbase]
  simp only [Pending, hseen]
  rcases Nat.lt_trichotomy e s.expiries.length with hlt | rfl | hgt
  · rw [List.getElem?_append_left hlt]
    have hne : e ≠ s.expiries.length := Nat.ne_of_lt hlt
    simp [hne]
  · have hnew : s.expiries.length ∉ s.subscriber.seen := fun hmem =>
      Nat.lt_irrefl _ (hrec.seen _ hmem)
    simp [hnew]
  · have hnone : s.expiries[e]? = none := List.getElem?_eq_none (Nat.le_of_lt hgt)
    have hnone' : (s.expiries ++ [expiry])[e]? = none :=
      List.getElem?_eq_none (by simpa using Nat.succ_le_of_lt hgt)
    have hne : e ≠ s.expiries.length := Nat.ne_of_gt hgt
    simp [hnone, hnone', hne]

private theorem effect_expire (h : s.Sees n db value v) (hrec : s.Recorded n db)
    (hlock : ∀ item ∈ v.lock, item.ttl ≤ 0) {key : String} {item : Item}
    (hitem : s.base.store key = some item) (httl : 0 < item.ttl) {putBy : Option String}
    {s' : Listening}
    (hs' : s' = { s with
      base := { s.base with
        store := update s.base.store key none
        events := s.base.events ++ [keyspaceChannel s.base.db key] }
      expiries := s.expiries ++ [⟨key, item.ttl, putBy⟩] }) :
    ∃ v', Effect n db value s s' v v' ∧ s'.Sees n db value v' := by
  subst hs'
  have hne : n.lockKey value ≠ key := by
    rintro rfl
    rw [h.lock] at hitem
    exact absurd httl (Int.not_lt.mpr (hlock item hitem))
  by_cases hkey : Announces n db value key
  · have hentry : v.entry key = some item := (h.entries key hkey).symm.trans hitem
    refine ⟨_, .expired hkey hentry List.getElem?_concat_length, fun key' hkey' => ?_,
      fun e => ?_, h.phase, ?_, h.calls⟩
    · simp only [update_apply]
      rw [h.entries key' hkey']
    · refine (pending_expire hrec { s.base with
        store := update s.base.store key none
        events := s.base.events ++ [keyspaceChannel s.base.db key] } rfl _ e).trans ?_
      simp [hkey, h.events]
    · rw [← h.lock]
      exact update_of_ne hne _ _
  · refine ⟨v, .same, fun key' hkey' => ?_, fun e => ?_, h.phase, ?_, h.calls⟩
    · rw [← h.entries key' hkey']
      refine update_of_ne ?_ _ _
      rintro rfl
      exact hkey hkey'
    · refine (pending_expire hrec { s.base with
        store := update s.base.store key none
        events := s.base.events ++ [keyspaceChannel s.base.db key] } rfl _ e).trans ?_
      simp [hkey, h.events]
    · rw [← h.lock]
      exact update_of_ne hne _ _

/-- An event is pending if the value is decoded from it. -/
theorem pending_iff_of_event (hrec : s.Recorded n db) {channel : String}
    (hnew : event ∉ s.subscriber.seen) (hchannel : s.base.events[event]? = some channel)
    (hheard : ∀ expiry ∈ s.expiries[event]?, s.notification.hears s.base.db expiry.key = true) :
    Pending n db value s event ↔ ∃ p, decodePayload channel = .ok p ∧ p.value = value := by
  obtain ⟨expiry, hexpiry, rfl⟩ := hrec.expiry_of_event hchannel
  constructor
  · rintro ⟨-, expiry', hexpiry', -, hdecode⟩
    cases hexpiry.symm.trans hexpiry'
    exact hdecode
  · intro hdecode
    exact ⟨hnew, expiry, hexpiry, hrec.heard hheard hexpiry, hdecode⟩

/-- An event with another value is received. -/
theorem Sees.receive_other (h : s.Sees n db value v) (hnot : ¬Pending n db value s event)
    (hnone : v.phase = none) (hphase : busyPhase value phase = none) :
    Sees n db value { s with base := s.base.receive () event phase } v := by
  refine ⟨h.entries, fun e => ?_, ?_, h.lock, h.calls⟩
  · rw [pending_receive, ← h.events]
    refine and_iff_left_of_imp ?_
    rintro hpending rfl
    exact hnot hpending
  · rw [phase_receive, hphase, hnone]

private theorem effect_receive (h : s.Sees n db value v) (hrec : s.Recorded n db) {channel : String}
    (hidle : s.phase = .idle) (hnew : event ∉ s.subscriber.seen)
    (hchannel : s.base.events[event]? = some channel)
    (hheard : ∀ expiry ∈ s.expiries[event]?, s.notification.hears s.base.db expiry.key = true)
    (hdecode : decodePayload channel = .ok p) {s' : Listening}
    (hs' : s' = { s with
      base := s.base.receive () event (.locking event ⟨p.count + 1, p.value⟩) }) :
    ∃ v', Effect n db value s s' v v' ∧ s'.Sees n db value v' := by
  subst hs'
  have hnone : v.phase = none := by rw [← h.phase, hidle, busyPhase_of_none rfl]
  have hiff : Pending n db value s event ↔ _ := pending_iff_of_event hrec hnew hchannel hheard
  by_cases heq : p.value = value
  · have hpending := hiff.mpr ⟨p, hdecode, heq⟩
    obtain ⟨expiry, hexpiry, rfl⟩ := hrec.expiry_of_event hchannel
    refine ⟨_, .received hnone ((h.events event).mp hpending) hexpiry hdecode, h.entries,
      fun e => ?_, ?_, h.lock, h.calls⟩
    · rw [pending_receive, h.events]
    · rw [phase_receive, busyPhase_of_eq (p := ⟨p.count + 1, p.value⟩) rfl heq]
  · refine ⟨v, .same, h.receive_other (fun hpending => ?_) hnone (busyPhase_of_ne rfl heq)⟩
    obtain ⟨q, hq, hvalue⟩ := hiff.mp hpending
    cases hdecode.symm.trans hq
    exact heq hvalue

/-- The lock is taken or given up. -/
theorem Sees.enter_lock (h : s.Sees n db p.value v) (hrec : s.Recorded n db)
    (hp : Decoded p.value) (item : Option Item) (phase : SubscriberPhase) :
    Sees n db p.value
      { s with base := { s.base with store := s.base.withLock () p item }.enter () phase }
      { v with phase := busyPhase p.value phase, lock := item } := by
  refine h.enter _ _ _ rfl (fun key hkey => ?_) rfl ?_ h.calls
  · rw [hrec.withLock_eq, update_lockKey_of_announces hp _ _ hkey, h.entries key hkey]
  · rw [hrec.withLock_eq, update_self]

/-- The lock for another value is taken or given up. -/
theorem Sees.enter_lock_other (h : s.Sees n db value v) (hrec : s.Recorded n db)
    (hp : Decoded p.value) (hne : p.value ≠ value) (item : Option Item)
    (hnone : v.phase = none) (hphase : busyPhase value phase = none) :
    Sees n db value
      { s with base := { s.base with store := s.base.withLock () p item }.enter () phase } v := by
  refine h.enter_other _ _ _ (fun key hkey => ?_) hnone hphase rfl
  rw [hrec.withLock_eq, update_lockKey_of_ne hp hne _ _ hkey]

/-- The subscriber goes on with the same keys. -/
theorem Sees.enter_same (h : s.Sees n db value v) (putBy : String → Option String)
    (phase : SubscriberPhase) :
    Sees n db value { s with base := s.base.enter () phase, putBy }
      { v with phase := busyPhase value phase } :=
  h.enter _ _ _ rfl h.entries rfl h.lock h.calls

private theorem Sees.enter_same_other (h : s.Sees n db value v) (putBy : String → Option String)
    (hnone : v.phase = none) (hphase : busyPhase value phase = none) :
    Sees n db value { s with base := s.base.enter () phase, putBy } v :=
  h.enter_other _ _ _ (fun _ _ => rfl) hnone hphase rfl

end Cases

/-- Every step but the beginning of another chain has one of the effects. -/
theorem effect_of_moves (h : s.Sees n db value v) (hrec : s.Recorded n db)
    (hvalue : Decoded value) (hlock : ∀ item ∈ v.lock, item.ttl ≤ 0) (hother : Other n db value l)
    (hmoves : s.Moves l s') : ∃ v', Effect n db value s s' v v' ∧ s'.Sees n db value v' := by
  have hn := hrec.notification
  cases hmoves with
  | @put n' p policy _ hl hpolicy =>
    have hnot : ¬Announces n db value (n'.waitKey p) := by
      rcases hl with rfl | ⟨rfl, rfl⟩
      · exact hother
      · rw [hn]
        exact hother
    exact ⟨v, .same, effect_put h hvalue hnot _ _⟩
  | expire hitem httl => exact effect_expire h hrec hlock hitem httl rfl
  | skip hidle hnew hchannel hheard hdecode =>
    have hnone : v.phase = none := by rw [← h.phase, hidle, busyPhase_of_none rfl]
    refine ⟨v, .same, h.receive_other ?_ hnone (busyPhase_of_none rfl)⟩
    rw [pending_iff_of_event hrec hnew hchannel hheard, hdecode]
    exact nofun
  | receive hidle hnew hchannel hheard hdecode =>
    exact effect_receive h hrec hidle hnew hchannel hheard hdecode rfl
  | @acquire event p hphase hfree =>
    have hp := hrec.decoded_of_phase hphase rfl
    rcases eq_or_ne p.value value with rfl | hne
    · rw [hn, h.lock] at hfree
      have hsees := h.enter_lock hrec hp (some ⟨s.subscriber.owner, 0⟩) (.handling event p)
      rw [busyPhase_of_eq rfl rfl] at hsees
      exact ⟨_, .acquired (h.phase_of_eq hphase rfl rfl) hfree, hsees⟩
    · exact ⟨v, .same, h.enter_lock_other hrec hp hne _ (h.phase_of_ne hphase rfl hne)
        (busyPhase_of_ne rfl hne)⟩
  | @busy event p hphase hheld =>
    rcases eq_or_ne p.value value with rfl | hne
    · rw [hn, h.lock] at hheld
      have hsees := h.enter_same s.putBy (.checking event p)
      rw [busyPhase_of_eq rfl rfl] at hsees
      exact ⟨_, .busy (h.phase_of_eq hphase rfl rfl) hheld, hsees⟩
    · exact ⟨v, .same, h.enter_same_other _ (h.phase_of_ne hphase rfl hne)
        (busyPhase_of_ne rfl hne)⟩
  | @keep event p hphase hown =>
    rcases eq_or_ne p.value value with rfl | hne
    · have hsees := h.enter_same s.putBy (.handling event p)
      rw [busyPhase_of_eq rfl rfl] at hsees
      exact ⟨_, .kept (h.phase_of_eq hphase rfl rfl), hsees⟩
    · exact ⟨v, .same, h.enter_same_other _ (h.phase_of_ne hphase rfl hne)
        (busyPhase_of_ne rfl hne)⟩
  | @turnDown event p hphase hheld =>
    rcases eq_or_ne p.value value with rfl | hne
    · rw [hn, h.lock] at hheld
      have hsees := h.enter_same s.putBy .idle
      rw [busyPhase_of_none rfl] at hsees
      exact ⟨_, .turnedDown (h.phase_of_eq hphase rfl rfl) hheld, hsees⟩
    · exact ⟨v, .same, h.enter_same_other _ (h.phase_of_ne hphase rfl hne)
        (busyPhase_of_none rfl)⟩
  | @handle event p putNext hphase =>
    rcases eq_or_ne p.value value with rfl | hne
    · refine ⟨_, .handled (h.phase_of_eq hphase rfl rfl), h.enter _ _ _ rfl h.entries
        (busyPhase_of_eq rfl rfl) h.lock ?_⟩
      rw [← h.calls]
      simp [callsFor]
    · refine ⟨v, .same, h.enter_other _ _ _ (fun _ _ => rfl) (h.phase_of_ne hphase rfl hne)
        (busyPhase_of_ne rfl hne) ?_⟩
      simp [callsFor, hne]
  | @next event p putNext policy hphase hagain hpolicy =>
    have hp := hrec.decoded_of_phase hphase rfl
    rw [hn] at hagain hpolicy ⊢
    rcases eq_or_ne p.value value with rfl | hne
    · refine ⟨_, .next (h.phase_of_eq hphase rfl rfl) hagain hpolicy, h.enter _ _ _ rfl
        (fun key hkey => ?_) (busyPhase_of_none rfl) ?_ h.calls⟩
      · simp only [entered, update_apply, h.entries key hkey]
      · rw [← h.lock]
        exact update_of_ne (waitKey_ne_lockKey_of_decoded hp).symm _ _
    · have hnot : ¬Announces n db value (n.waitKey p) := not_announces_waitKey hp hne p.count
      exact ⟨v, .same, h.enter_other _ _ _
        (fun key hkey => entered_of_not_announces hvalue hnot _ _ hkey)
        (h.phase_of_ne hphase rfl hne) (busyPhase_of_none rfl) rfl⟩
  | @crash event p putNext hphase hagain hnone =>
    rw [hn] at hagain hnone ⊢
    rcases eq_or_ne p.value value with rfl | hne
    · have hsees := h.enter_same (update s.putBy (n.waitKey p) (some n.key))
        .crashed
      rw [busyPhase_of_none rfl] at hsees
      exact ⟨_, .crashed (h.phase_of_eq hphase rfl rfl) hagain hnone, hsees⟩
    · exact ⟨v, .same, h.enter_same_other _ (h.phase_of_ne hphase rfl hne)
        (busyPhase_of_none rfl)⟩
  | @unlock event p putNext hphase hagain =>
    have hp := hrec.decoded_of_phase hphase rfl
    rw [hn] at hagain
    rcases eq_or_ne p.value value with rfl | hne
    · have hsees := h.enter_lock hrec hp none .idle
      rw [busyPhase_of_none rfl] at hsees
      exact ⟨_, .unlocked (h.phase_of_eq hphase rfl rfl) hagain, hsees⟩
    · exact ⟨v, .same, h.enter_lock_other hrec hp hne _ (h.phase_of_ne hphase rfl hne)
        (busyPhase_of_none rfl)⟩

end Effects

end Listening

end Stardust.Redis
