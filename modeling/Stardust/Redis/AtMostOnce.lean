import Stardust.Redis.Subscribers

/-!
# Each expiry is handled at most once

While a subscriber is at its handler it owns the lock for the payload, and after it has handled an
event it keeps the lock for as long as another subscriber may still come to that event. The second
fact is what a lock given up too early breaks.
-/

namespace Stardust.Redis

open Stardust.Core Function SubscriberPhase Notification

/-- The name of an owner is not the value of a key that waits. -/
theorem Subscriber.owner_ne_mark (b : Subscriber) : b.owner ≠ "\x01" := by
  intro h
  have hmem : '-' ∈ b.owner.toList := by
    simp [Subscriber.owner, Notification.owner]
  rw [h] at hmem
  revert hmem
  decide

variable {p : Payload}

/-- Letting a payload wait changes one key, to a value that names nobody. -/
theorem Notification.putNotification_spec {n : Notification} {store store' : Store}
    {failed : Bool} (h : n.putNotification store failed p = some store') (key : String) :
    store' key = store key ∨ key = n.waitKey p ∧ ∃ policy, store' key = some ⟨"\x01", policy⟩ := by
  unfold putNotification at h
  split at h
  · cases h
  · obtain ⟨policy, -, rfl⟩ := Option.map_eq_some_iff.mp h
    by_cases hkey : key = n.waitKey p
    · cases failed
      · exact Or.inr ⟨hkey, policy, by simp [hkey]⟩
      · exact Or.inl (by simp)
    · exact Or.inl (by split <;> simp [hkey])

variable {event : Nat} {value : String}

namespace Subscribers

variable {ι : Type}

/-- A value of an event is the value of a decoded payload. -/
theorem exists_decode_of_valueOf {s : Subscribers ι} (h : s.valueOf event = some value) :
    ∃ channel p, decodePayload channel = .ok p ∧ p.value = value := by
  unfold valueOf at h
  split at h
  · cases h
  · next channel _ =>
    split at h
    · cases h
    · next p hdecode => exact ⟨channel, p, hdecode, Option.some.inj h⟩

/-- The subscriber owns the lock for a value. -/
def Holds (s : Subscribers ι) (i : ι) (value : String) : Prop :=
  ∃ item, s.store ((s.subscribers i).notification.lockKey value) = some item ∧
    item.data = (s.subscribers i).owner

section Frames

variable [DecidableEq ι] {s s' : Subscribers ι} {label : SubscriberLabel ι}

@[simp] private theorem enter_subscribers (s : Subscribers ι) (i j : ι) (phase : SubscriberPhase) :
    (s.enter i phase).subscribers j =
      if j = i then { s.subscribers i with phase } else s.subscribers j :=
  update_apply ..

@[simp] private theorem receive_subscribers (s : Subscribers ι) (i j : ι) (event : Nat)
    (phase : SubscriberPhase) :
    (s.receive i event phase).subscribers j =
      if j = i then { s.subscribers i with phase, seen := event :: (s.subscribers i).seen }
      else s.subscribers j :=
  update_apply ..

/-- A step changes neither the notification nor the goroutine of a subscriber. -/
theorem Moves.identity (h : s.Moves label s') (j : ι) :
    (s'.subscribers j).notification = (s.subscribers j).notification ∧
      (s'.subscribers j).owner = (s.subscribers j).owner := by
  unfold Subscriber.owner
  cases h <;> simp only [enter_subscribers, receive_subscribers, and_self] <;> split <;> simp_all

/-- What is received stays so. -/
theorem Moves.seen (h : s.Moves label s') (j : ι) (hseen : event ∈ (s.subscribers j).seen) :
    event ∈ (s'.subscribers j).seen := by
  cases h <;> simp only [enter_subscribers, receive_subscribers, hseen] <;> split <;> simp_all

/-- The events so far keep their values. -/
theorem Moves.valueOf (h : s.Moves label s') (hvalue : s.valueOf event = some value) :
    s'.valueOf event = some value := by
  cases h with
  | expire =>
    unfold Subscribers.valueOf at hvalue ⊢
    cases hchannel : s.events[event]? with
    | none => simp [hchannel] at hvalue
    | some channel =>
      obtain ⟨hlt, -⟩ := List.getElem?_eq_some_iff.mp hchannel
      rw [List.getElem?_append_left hlt]
      exact hvalue
  | _ => exact hvalue

/-- A loop is busy with what it was busy with, or with an event it has just received. -/
theorem Moves.job (h : s.Moves label s') (j : ι)
    (hjob : (s'.subscribers j).phase.job = some (event, p)) :
    (s.subscribers j).phase.job = some (event, p) ∨
      event ∈ (s'.subscribers j).seen ∧ s.valueOf event = some p.value := by
  cases h <;> simp only [enter_subscribers, receive_subscribers] at hjob ⊢ <;>
    first
    | exact Or.inl hjob
    | split at hjob <;> simp_all [job]

/-- An event that is outstanding was so before. -/
theorem Moves.outstanding (h : s.Moves label s') (j : ι) (hout : s'.Outstanding j event) :
    s.Outstanding j event := by
  unfold Outstanding at hout ⊢
  cases h with
  | put | expire => exact hout
  | receive hidle hnew =>
    simp only [receive_subscribers] at hout
    split at hout
    · next heq =>
      subst heq
      rcases hout with hunseen | hpursues
      · exact Or.inl fun hseen => hunseen (List.mem_cons_of_mem _ hseen)
      · cases hpursues
        exact Or.inl hnew
    · exact hout
  | skip hidle =>
    simp only [receive_subscribers] at hout
    split at hout <;> simp_all [pursues]
  | acquire | busy | own | turnDown | handle | next | crash | keep | unlock =>
    simp only [enter_subscribers] at hout
    split at hout <;> simp_all [pursues]

/-- Who has the lock after a step had it before and does not give it up, or has just got it. -/
theorem Moves.locked (h : s.Moves label s') (j : ι)
    (hlocked : (s'.subscribers j).phase.locked = some p) :
    (s.subscribers j).phase.locked = some p ∧ label ≠ .unlock j false ∨ s'.Holds j p.value := by
  cases h with
  | put | expire => exact Or.inl ⟨hlocked, nofun⟩
  | skip | receive =>
    simp only [receive_subscribers] at hlocked
    split at hlocked <;> simp_all [locked]
  | busy | turnDown | handle | next | crash | keep =>
    simp only [enter_subscribers] at hlocked
    split at hlocked <;> simp_all [locked]
  | unlock =>
    simp only [enter_subscribers] at hlocked
    split at hlocked
    · cases hlocked
    · next hne => exact Or.inl ⟨hlocked, fun heq => hne (SubscriberLabel.unlock.inj heq).1.symm⟩
  | @acquire i event q hphase hfree =>
    simp only [enter_subscribers] at hlocked
    split at hlocked
    · next heq =>
      subst heq
      cases hlocked
      right
      refine ⟨⟨(s.subscribers j).owner, 0⟩, ?_, ?_⟩
      · simp [enter, withLock, lockOf]
      · simp [Subscriber.owner]
    · exact Or.inl ⟨hlocked, nofun⟩
  | @own i event q hphase hown =>
    simp only [enter_subscribers] at hlocked
    split at hlocked
    · next heq =>
      subst heq
      cases hlocked
      right
      obtain ⟨item, hitem, hdata⟩ := Option.map_eq_some_iff.mp hown
      refine ⟨item, ?_, ?_⟩
      · simpa [enter, lockOf] using hitem
      · simpa [Subscriber.owner] using hdata
    · exact Or.inl ⟨hlocked, nofun⟩

/-- A step calls the handler of one subscriber, which is at its handler, or of none. -/
theorem Moves.handled (h : s.Moves label s') {i : ι} (hmem : (event, i) ∈ s'.handled) :
    (event, i) ∈ s.handled ∨ ∃ p, (s.subscribers i).phase = .handling event p ∧
      (s'.subscribers i).phase.locked = some p := by
  cases h with
  | handle hphase =>
    rcases List.mem_cons.mp hmem with heq | hold
    · cases heq
      exact Or.inr ⟨_, hphase, by simp [SubscriberPhase.locked]⟩
    · exact Or.inl hold
  | _ => exact Or.inl hmem

/-- A step changes a key only to let a payload wait, at an expiry, to set a free lock or to give
a lock up. -/
theorem Moves.store (h : s.Moves label s') (key : String) :
    s'.store key = s.store key ∨
      (∃ i p, key = (s.subscribers i).notification.waitKey p) ∨
      (∃ item, s.store key = some item ∧ 0 < item.ttl) ∨ s.store key = none ∨
      ∃ i p, label = .unlock i false ∧ (s.subscribers i).phase.locked = some p ∧
        key = s.lockOf i p := by
  cases h with
  | put hput | next _ hput =>
    rcases putNotification_spec hput key with hsame | ⟨hkey, -⟩
    · exact Or.inl hsame
    · exact Or.inr (Or.inl ⟨_, _, hkey⟩)
  | @expire key' item hitem httl =>
    by_cases hkey : key = key'
    · exact Or.inr (Or.inr (Or.inl ⟨item, hkey ▸ hitem, httl⟩))
    · exact Or.inl (update_of_ne hkey ..)
  | @acquire i event p hphase hfree =>
    by_cases hkey : key = s.lockOf i p
    · exact Or.inr (Or.inr (Or.inr (Or.inl (hkey ▸ hfree))))
    · exact Or.inl (update_of_ne hkey ..)
  | @unlock i event p putNext hphase =>
    by_cases hkey : key = s.lockOf i p
    · refine Or.inr (Or.inr (Or.inr (Or.inr ⟨i, p, rfl, ?_, hkey⟩)))
      rw [hphase]
      rfl
    · exact Or.inl (update_of_ne hkey ..)
  | _ => exact Or.inl rfl

/-- Whatever a step writes names a subscriber only as the owner of a lock that does not expire. -/
theorem Moves.written (h : s.Moves label s') {key : String} {item : Item}
    (hitem : s'.store key = some item) :
    s.store key = some item ∨ item.data = "\x01" ∨ item.ttl = 0 := by
  cases h with
  | put hput | next _ hput =>
    rcases putNotification_spec hput key with hsame | ⟨-, policy, hnew⟩
    · exact Or.inl (hsame ▸ hitem)
    · right
      left
      have heq : item = ⟨"\x01", policy⟩ := Option.some.inj (hitem.symm.trans hnew)
      rw [heq]
  | @expire key' =>
    by_cases hkey : key = key'
    · simp [hkey] at hitem
    · exact Or.inl ((update_of_ne hkey ..).symm.trans hitem)
  | @acquire i event p hphase hfree =>
    by_cases hkey : key = s.lockOf i p
    · simp [enter, withLock, hkey] at hitem
      exact Or.inr (Or.inr (hitem ▸ rfl))
    · exact Or.inl ((update_of_ne hkey ..).symm.trans hitem)
  | @unlock i event p putNext hphase =>
    by_cases hkey : key = s.lockOf i p
    · simp [enter, withLock, hkey] at hitem
    · exact Or.inl ((update_of_ne hkey ..).symm.trans hitem)
  | _ => exact Or.inl hitem

end Frames

/-- What guarded runs keep. -/
structure Safe (s : Subscribers ι) : Prop where
  /-- All subscribe to the same key of the same view. -/
  shared : ∀ i j, (s.subscribers i).notification.key = (s.subscribers j).notification.key ∧
    (s.subscribers i).notification.cache = (s.subscribers j).notification.cache
  /-- Their nodes differ. -/
  nodes : ∀ i j, (s.subscribers i).notification.node = (s.subscribers j).notification.node → i = j
  /-- Locks do not expire. -/
  lasting : ∀ i key item, s.store key = some item → item.data = (s.subscribers i).owner →
    item.ttl ≤ 0
  /-- A loop is busy with an event that it has received. -/
  working : ∀ i event p, (s.subscribers i).phase.job = some (event, p) →
    event ∈ (s.subscribers i).seen ∧ s.valueOf event = some p.value
  /-- At its handler a subscriber owns the lock. -/
  owned : ∀ i p, (s.subscribers i).phase.locked = some p → s.Holds i p.value
  /-- What is handled has a value. -/
  recorded : ∀ event i, (event, i) ∈ s.handled → ∃ value, s.valueOf event = some value
  /-- The lock is kept while a handled event is outstanding. -/
  kept : ∀ event i value, (event, i) ∈ s.handled → s.valueOf event = some value →
    ∀ j, j ≠ i → s.Outstanding j event → s.Holds i value
  once : s.AtMostOnce

private theorem Started.safe {s : Subscribers ι} (h : s.Started) : s.Safe := by
  obtain ⟨key, cache, hmade⟩ := h.made
  have hsettings : ∀ i, (s.subscribers i).notification.key = key ∧
      (s.subscribers i).notification.cache = cache := by
    intro i
    obtain ⟨node, policies, hnew⟩ := hmade i
    simp only [newNotification] at hnew
    split at hnew
    · cases hnew
    · have heq := Option.some.inj hnew
      rw [← heq]
      exact ⟨rfl, rfl⟩
  have hhandled : ∀ event i, (event, i) ∉ s.handled := by
    intro event i
    rw [h.quiet.2]
    exact List.not_mem_nil
  exact
    { shared := fun i j =>
        ⟨(hsettings i).1.trans (hsettings j).1.symm, (hsettings i).2.trans (hsettings j).2.symm⟩
      nodes := h.nodes
      lasting := h.lasting
      working := fun i event p hjob => by simp [(h.idle i).1, job] at hjob
      owned := fun i p hlocked => by simp [(h.idle i).1, locked] at hlocked
      recorded := fun event i hmem => absurd hmem (hhandled event i)
      kept := fun event i _ hmem => absurd hmem (hhandled event i)
      once := fun event i _ hmem => absurd hmem (hhandled event i) }

section Safety

variable {s s' : Subscribers ι} {label : SubscriberLabel ι}

private theorem Safe.lockKey_eq (hs : s.Safe) (i j : ι) (value : String) :
    (s.subscribers i).notification.lockKey value =
      (s.subscribers j).notification.lockKey value := by
  rw [lockKey, lockKey, (hs.shared i j).1, (hs.shared i j).2]

/-- A lock has one owner. -/
theorem Safe.holds_unique (hs : s.Safe) {i j : ι} (hi : s.Holds i value) (hj : s.Holds j value) :
    i = j := by
  obtain ⟨item, hitem, hdata⟩ := hi
  obtain ⟨item', hitem', hdata'⟩ := hj
  rw [hs.lockKey_eq j i, hitem, Option.some.injEq] at hitem'
  apply hs.nodes
  exact node_eq_of_owner_eq (hdata.symm.trans (hitem' ▸ hdata'))

variable [DecidableEq ι]

/-- A lock for the value of an event is kept unless its owner gives it up. -/
theorem Safe.holds_moves (hs : s.Safe) (hmoves : s.Moves label s') {i : ι}
    (hvalue : s.valueOf event = some value) (hholds : s.Holds i value)
    (hkeep : ∀ p, label = .unlock i false → (s.subscribers i).phase.locked = some p →
      p.value ≠ value) : s'.Holds i value := by
  obtain ⟨item, hitem, hdata⟩ := hholds
  obtain ⟨hnotification, howner⟩ := hmoves.identity i
  rcases hmoves.store ((s.subscribers i).notification.lockKey value) with
    hsame | ⟨k, p, hwait⟩ | ⟨item', hitem', httl⟩ | hnone | ⟨k, p, hlabel, hlocked, hkey⟩
  · exact ⟨item, by rw [hnotification, hsame, hitem], by rw [howner, hdata]⟩
  · obtain ⟨channel, q, hdecode, rfl⟩ := exists_decode_of_valueOf hvalue
    rw [hs.lockKey_eq i k] at hwait
    exact absurd hwait.symm (waitKey_ne_lockKey hdecode _ p)
  · rw [hitem, Option.some.injEq] at hitem'
    have hle := hs.lasting i _ item hitem hdata
    rw [hitem'] at hle
    omega
  · rw [hitem] at hnone
    cases hnone
  · have hvalue' : value = p.value := by
      rw [lockOf, hs.lockKey_eq k i] at hkey
      exact lockKey_inj.mp hkey
    have hk : s.Holds k value := hvalue' ▸ hs.owned k p hlocked
    have heq := hs.holds_unique ⟨item, hitem, hdata⟩ hk
    subst heq
    exact absurd hvalue'.symm (hkeep p hlabel hlocked)

/-- A lock is kept while an event handled under it is outstanding for another subscriber. -/
theorem Safe.kept_moves (hs : s.Safe) (hguard : s.ReleasesLate label) (hmoves : s.Moves label s')
    {i j : ι} (hmem : (event, i) ∈ s.handled) (hvalue : s.valueOf event = some value)
    (hne : j ≠ i) (hout : s'.Outstanding j event) : s'.Holds i value := by
  have hout' := hmoves.outstanding j hout
  refine hs.holds_moves hmoves hvalue (hs.kept event i value hmem hvalue j hne hout') ?_
  rintro p rfl hlocked rfl
  cases hmoves with
  | unlock hphase =>
    rw [hphase] at hlocked
    cases hlocked
    simp only [ReleasesLate, hphase] at hguard
    exact hguard (event, i) hmem hvalue j hne hout'

omit [DecidableEq ι] in
/-- The payload at a handler has the value of its event. -/
theorem Safe.value_of_handling (hs : s.Safe) {i : ι}
    (hphase : (s.subscribers i).phase = .handling event p) : s.valueOf event = some p.value :=
  (hs.working i event p (by rw [hphase]; rfl)).2

omit [DecidableEq ι] in
/-- A subscriber at its handler owns the lock. -/
theorem Safe.holds_of_handling (hs : s.Safe) {i : ι}
    (hphase : (s.subscribers i).phase = .handling event p) : s.Holds i p.value :=
  hs.owned i p (by rw [hphase]; rfl)

omit [DecidableEq ι] in
/-- Only the subscriber that handled an event may be at its handler with it. -/
theorem Safe.eq_of_handled (hs : s.Safe) {i j : ι} (hmem : (event, i) ∈ s.handled)
    (hphase : (s.subscribers j).phase = .handling event p) : i = j := by
  by_contra hne
  have hout : s.Outstanding j event := Or.inr (by rw [hphase]; rfl)
  have hi := hs.kept event i p.value hmem (hs.value_of_handling hphase) j (Ne.symm hne) hout
  exact hne (hs.holds_unique hi (hs.holds_of_handling hphase))

/-- Who has the lock after a step owns it. -/
theorem Safe.owned_moves (hs : s.Safe) (hmoves : s.Moves label s') {i : ι}
    (hlocked : (s'.subscribers i).phase.locked = some p) : s'.Holds i p.value := by
  rcases hmoves.locked i hlocked with ⟨hbefore, hlabel⟩ | hnow
  · obtain ⟨event, hjob⟩ : ∃ event, (s.subscribers i).phase.job = some (event, p) := by
      cases hphase : (s.subscribers i).phase <;>
        simp_all [locked, job]
    exact hs.holds_moves hmoves (hs.working i event p hjob).2 (hs.owned i p hbefore)
      fun _ heq => absurd heq hlabel
  · exact hnow

/-- A step does not let a second subscriber handle an event: both would own its lock. -/
theorem Safe.once_moves (hs : s.Safe) (hmoves : s.Moves label s') : s'.AtMostOnce := by
  intro event i j hi hj
  rcases hmoves.handled hi with hiold | ⟨p, hip, -⟩
  · rcases hmoves.handled hj with hjold | ⟨q, hjq, -⟩
    · exact hs.once event i j hiold hjold
    · exact hs.eq_of_handled hiold hjq
  · rcases hmoves.handled hj with hjold | ⟨q, hjq, -⟩
    · exact (hs.eq_of_handled hjold hip).symm
    · have hvalue : p.value = q.value := Option.some.inj
        ((hs.value_of_handling hip).symm.trans (hs.value_of_handling hjq))
      have hjowned : s.Holds j p.value := hvalue ▸ hs.holds_of_handling hjq
      exact hs.holds_unique (hs.holds_of_handling hip) hjowned

/-- Every guarded step keeps the runs safe. -/
theorem Safe.step (hs : s.Safe) (hguard : s.ReleasesLate label) (h : s.step label = some s') :
    s'.Safe := by
  have hmoves := step_moves h
  refine ⟨?_, ?_, ?_, ?_, fun i p => hs.owned_moves hmoves, ?_, ?_, hs.once_moves hmoves⟩
  · intro i j
    rw [(hmoves.identity i).1, (hmoves.identity j).1]
    exact hs.shared i j
  · intro i j
    rw [(hmoves.identity i).1, (hmoves.identity j).1]
    exact hs.nodes i j
  · intro i key item hitem hdata
    rw [(hmoves.identity i).2] at hdata
    rcases hmoves.written hitem with hold | hmark | hzero
    · exact hs.lasting i key item hold hdata
    · exact absurd (hdata.symm.trans hmark) (Subscriber.owner_ne_mark _)
    · exact le_of_eq hzero
  · intro i event p hjob
    rcases hmoves.job i hjob with hold | ⟨hseen, hvalue⟩
    · obtain ⟨hseen, hvalue⟩ := hs.working i event p hold
      exact ⟨hmoves.seen i hseen, hmoves.valueOf hvalue⟩
    · exact ⟨hseen, hmoves.valueOf hvalue⟩
  · intro event i hmem
    rcases hmoves.handled hmem with hold | ⟨p, hphase, -⟩
    · obtain ⟨value, hvalue⟩ := hs.recorded event i hold
      exact ⟨value, hmoves.valueOf hvalue⟩
    · exact ⟨p.value, hmoves.valueOf (hs.value_of_handling hphase)⟩
  · intro event i value hmem hvalue j hne hout
    rcases hmoves.handled hmem with hold | ⟨p, hphase, hlocked⟩
    · obtain ⟨value', hvalue'⟩ := hs.recorded event i hold
      have heq : value' = value := Option.some.inj ((hmoves.valueOf hvalue').symm.trans hvalue)
      exact hs.kept_moves hguard hmoves hold (heq ▸ hvalue') hne hout
    · have heq : p.value = value :=
        Option.some.inj ((hmoves.valueOf (hs.value_of_handling hphase)).symm.trans hvalue)
      exact heq ▸ hs.owned_moves hmoves hlocked

end Safety

/-- In every run in which a lock is given up only after every other subscriber has turned down
the events handled under it, each expiry is handled by at most one subscriber. -/
theorem notification_handled_at_most_once [DecidableEq ι] {s s' : Subscribers ι}
    {labels : List (SubscriberLabel ι)} (hinit : (subscriptions ι).init s)
    (hguard : (subscriptions ι).Guarded ReleasesLate s labels)
    (hrun : (subscriptions ι).run s labels = some s') : s'.AtMostOnce := by
  have hsafe : s'.Safe := (subscriptions ι).run_guarded
    (fun _ _ _ hs hg hstep => Safe.step hs hg hstep) (Started.safe hinit) hguard hrun
  exact hsafe.once

/-- The nodes of a small deployment. -/
inductive Node where
  | a
  | b
  deriving DecidableEq, Repr

instance : Fintype Node := ⟨{.a, .b}, fun i => by cases i <;> decide⟩

/-- Two nodes that subscribe to the same key. -/
def twoNodes : Subscribers Node where
  subscribers i :=
    ⟨⟨"orders", if i = .a then "a" else "b", ⟨"app"⟩, defaultRetryPolicies⟩, 1, .idle, []⟩
  store := fun _ => none
  db := 0
  events := []
  handled := []

private theorem twoNodes_started : (subscriptions Node).init twoNodes where
  made := by
    refine ⟨"orders", ⟨"app"⟩, fun i => ?_⟩
    cases i with
    | a => exact ⟨"a", none, rfl⟩
    | b => exact ⟨"b", none, rfl⟩
  nodes := by decide
  idle := fun _ => ⟨rfl, rfl⟩
  quiet := ⟨rfl, rfl⟩
  lasting := nofun

/-- A payload is put and expires. -/
def expiry : List (SubscriberLabel Node) :=
  [.put .a ⟨0, "42"⟩, .expire "app:retry-orders:42||0"]

/-- The second node turns the event down before the first gives the lock up. -/
theorem notification_handled_once_when_turned_down :
    (subscriptions Node).Guarded ReleasesLate twoNodes
        (expiry ++ [.deliver .a 0, .deliver .b 0, .setNX .a false, .setNX .b false, .get .b false,
          .handle .a false, .unlock .a false]) ∧
      ∃ s', (subscriptions Node).run twoNodes
        (expiry ++ [.deliver .a 0, .deliver .b 0, .setNX .a false, .setNX .b false, .get .b false,
          .handle .a false, .unlock .a false]) = some s' ∧
        s'.handled = [(0, .a)] ∧ s'.AtMostOnce := by
  have hguard : (subscriptions Node).Guarded ReleasesLate twoNodes
      (expiry ++ [.deliver .a 0, .deliver .b 0, .setNX .a false, .setNX .b false, .get .b false,
        .handle .a false, .unlock .a false]) := by
    decide
  exact ⟨hguard, _, rfl, rfl, notification_handled_at_most_once twoNodes_started hguard rfl⟩

/-- The first node handles the event and gives the lock up before the second receives it. -/
theorem notification_handled_twice :
    ∃ s', (subscriptions Node).init twoNodes ∧
      (subscriptions Node).run twoNodes
        (expiry ++ [.deliver .a 0, .setNX .a false, .handle .a false, .unlock .a false,
          .deliver .b 0, .setNX .b false, .handle .b false]) = some s' ∧
      s'.handled = [(0, .b), (0, .a)] ∧ ¬ s'.AtMostOnce := by
  refine ⟨_, twoNodes_started, rfl, rfl, fun honce => ?_⟩
  have heq : Node.a = .b :=
    honce 0 .a .b (List.mem_cons_of_mem _ (List.mem_cons_self ..)) (List.mem_cons_self ..)
  exact absurd heq (by decide)

end Subscribers

end Stardust.Redis
