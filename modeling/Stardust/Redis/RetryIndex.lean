import Stardust.Redis.Listening

/-!
# The index into the policies

Processes put fresh payloads with any values and subscribe to the expiries. The number of an
attempt is read back from the name of the key, in which the value stands as it is, so that a value
can bring a negative number with it. The loop checks the number from above only before it indexes
the policies. A handler gets the payload itself, which it may change or put again; then nobody
checks the number.
-/

namespace Stardust.Redis.Subscribers

open Stardust.Core Function Notification

variable {ι : Type}

/-- What happens to the subscribers, with handlers that change the payload they were given. -/
inductive RetryLabel (ι : Type) where
  /-- A step of the subscribers. -/
  | own (label : SubscriberLabel ι)
  /-- A handler has set another value in its payload. -/
  | rewrite (i : ι) (value : String)

/-- A handler was given a payload with this number. -/
def given (s : Subscribers ι) (count : Int) : Bool :=
  s.handled.any fun entry => (s.events[entry.1]?).any fun channel =>
    match decodePayload channel with
    | .ok p => p.count + 1 = count
    | .error _ => false

/-- Fresh payloads with certain values are put, and if handlers reuse what they were given, also
payloads with its number; Redis passes on what a pattern matches. -/
def Admits (puts : String → Bool) (reuses : Bool) (s : Subscribers ι) : SubscriberLabel ι → Prop
  | .put _ p => p.count = 0 ∧ puts p.value = true ∨ reuses = true ∧ s.given p.count = true
  | .deliver i event =>
    ∀ channel ∈ s.events[event]?, globMatches (s.subscribers i).notification.space channel = true
  | .expire _ | .setNX _ _ | .get _ _ | .handle _ _ | .putNext _ _ | .unlock _ _ => True

instance (puts : String → Bool) (reuses : Bool) (s : Subscribers ι) :
    (label : SubscriberLabel ι) → Decidable (s.Admits puts reuses label)
  | .put _ _ => inferInstanceAs (Decidable (_ ∨ _))
  | .deliver _ _ => inferInstanceAs (Decidable (∀ channel ∈ _, _))
  | .expire _ | .setNX _ _ | .get _ _ | .handle _ _ | .putNext _ _ | .unlock _ _ => isTrue trivial

/-- The value of the payload that a loop is going to put again or to unlock is another one. -/
def rewrite [DecidableEq ι] (s : Subscribers ι) (i : ι) (value : String) :
    Option (Subscribers ι) :=
  match (s.subscribers i).phase with
  | .answered event p putNext => some (s.enter i (.answered event ⟨p.count, value⟩ putNext))
  | _ => none

/-- Processes with these notifications begin on an empty database. -/
structure Opening (fleet : ι → Notification) (db : Nat) (s : Subscribers ι) : Prop where
  subscribers : ∀ i, ∃ routineID, s.subscribers i = ⟨fleet i, routineID, .idle, []⟩
  store : s.store = fun _ => none
  db : s.db = db
  quiet : s.events = [] ∧ s.handled = []

/-- The runs of the processes in which payloads with certain values are put, and handlers may reuse
their payloads or not. -/
def retries [DecidableEq ι] (fleet : ι → Notification) (db : Nat) (puts : String → Bool)
    (reuses : Bool) : System (Subscribers ι) (RetryLabel ι) where
  init := Opening fleet db
  step s
    | .own label => if s.Admits puts reuses label then s.step label else none
    | .rewrite i value => if reuses then s.rewrite i value else none

/-- In every state every process can put every payload that it may put, and no loop has
panicked. -/
def IndexSafe [DecidableEq ι] (fleet : ι → Notification) (db : Nat) (puts : String → Bool)
    (reuses : Bool) : Prop :=
  ∀ s, (retries fleet db puts reuses).Reachable s →
    (∀ i p, s.Admits puts reuses (.put i p) →
      ((fleet i).putNotification s.store false p).isSome = true) ∧
    ∀ i, (s.subscribers i).phase ≠ .crashed

/-- Whoever hears about the expiry of a key does not read a number from it that is negative after
it was increased. -/
def Harmless (fleet : ι → Notification) (db : Nat) (key : String) : Prop :=
  ∀ i p, (fleet i).hears db key = true → decodePayload (keyspaceChannel db key) = .ok p →
    -1 ≤ p.count

/-- What holds as long as all keys that are put are harmless. -/
structure Steady (fleet : ι → Notification) (db : Nat) (s : Subscribers ι) : Prop where
  fleet_eq : ∀ i, (s.subscribers i).notification = fleet i
  db_eq : s.db = db
  keys : ∀ key item, s.store key = some item → 0 < item.ttl → Harmless fleet db key
  events : ∀ channel ∈ s.events, ∃ key, channel = keyspaceChannel db key ∧ Harmless fleet db key
  jobs : ∀ i event p, (s.subscribers i).phase.job = some (event, p) →
    0 ≤ p.count ∧ Decoded p.value
  alive : ∀ i, (s.subscribers i).phase ≠ .crashed

variable {p : Payload}

section Steady

variable {fleet : ι → Notification} {db : Nat} {s s' : Subscribers ι} {i : ι}
  {phase : SubscriberPhase} {puts : String → Bool} {label : SubscriberLabel ι}

private theorem steady_of_opening (h : Opening fleet db s) : s.Steady fleet db := by
  have hidle : ∀ i, (s.subscribers i).phase = .idle := by
    intro i
    obtain ⟨routineID, hi⟩ := h.subscribers i
    rw [hi]
  refine ⟨fun i => ?_, h.db, ?_, ?_, ?_, ?_⟩
  · obtain ⟨routineID, hi⟩ := h.subscribers i
    rw [hi]
  · intro key item hitem
    rw [h.store] at hitem
    cases hitem
  · intro channel hchannel
    rw [h.quiet.1] at hchannel
    cases hchannel
  · intro i event p hjob
    rw [hidle i] at hjob
    cases hjob
  · intro i
    rw [hidle i]
    exact SubscriberPhase.noConfusion

/-- A payload whose number is not negative is put under a harmless key if its value was decoded. -/
theorem harmless_of_decoded (fleet : ι → Notification) (db : Nat) {value : String} {count : Int}
    (hcount : 0 ≤ count) (hvalue : Decoded value) (n : Notification) :
    Harmless fleet db (n.waitKey ⟨count, value⟩) := by
  intro i p _ hdecode
  obtain ⟨before, hchannel⟩ := n.toList_waitChannel db ⟨count, value⟩
  obtain ⟨k, rfl⟩ := Int.eq_ofNat_of_zero_le hcount
  rw [hvalue.decodePayload_encodePayload hchannel] at hdecode
  cases hdecode
  have hparse : parseInt 32 (toString (k : Int)).toList = _ := parseInt_toString 32 k
  dsimp only
  omega

/-- The keys change, and those that expire are harmless. -/
theorem Steady.write (h : s.Steady fleet db) (key : String) (item : Option Item)
    (hitem : ∀ it, item = some it → 0 < it.ttl → Harmless fleet db key) :
    { s with store := update s.store key item }.Steady fleet db := by
  refine ⟨h.fleet_eq, h.db_eq, ?_, h.events, h.jobs, h.alive⟩
  intro key' it hit httl
  by_cases hkey : key' = key
  · subst hkey
    exact hitem it (by simpa using hit) httl
  · exact h.keys key' it (by simpa [hkey] using hit) httl

/-- Removed keys and locks do not expire. -/
theorem Steady.writeLasting (h : s.Steady fleet db) (key : String) (item : Option Item)
    (hitem : ∀ it ∈ item, it.ttl = 0) :
    { s with store := update s.store key item }.Steady fleet db := by
  refine h.write key item fun it hit httl => ?_
  rw [hitem it hit] at httl
  exact absurd httl (by decide)

variable [DecidableEq ι]

/-- A subscriber goes on with a job that it may have. -/
theorem Steady.move (h : s.Steady fleet db) {b : Subscriber}
    (hnotification : b.notification = (s.subscribers i).notification)
    (hjob : ∀ event p, b.phase.job = some (event, p) → 0 ≤ p.count ∧ Decoded p.value)
    (halive : b.phase ≠ .crashed) :
    { s with subscribers := update s.subscribers i b }.Steady fleet db := by
  refine ⟨?_, h.db_eq, h.keys, h.events, ?_, ?_⟩
  · intro j
    by_cases hj : j = i
    · subst hj
      simp [hnotification, h.fleet_eq]
    · simp [hj, h.fleet_eq]
  · intro j event p hjob'
    by_cases hj : j = i
    · subst hj
      exact hjob event p (by simpa using hjob')
    · exact h.jobs j event p (by simpa [hj] using hjob')
  · intro j
    by_cases hj : j = i
    · subst hj
      simpa using halive
    · simpa [hj] using h.alive j

/-- A subscriber goes on with the job that it has. -/
theorem Steady.proceed (h : s.Steady fleet db)
    (hjob : phase.job = (s.subscribers i).phase.job) (halive : phase ≠ .crashed) :
    (s.enter i phase).Steady fleet db :=
  h.move rfl (fun event p hphase => h.jobs i event p (hjob ▸ hphase)) halive

/-- A subscriber waits for the next message. -/
theorem Steady.rest (h : s.Steady fleet db) : (s.enter i .idle).Steady fleet db :=
  h.move rfl (by simp [SubscriberPhase.job]) (by simp)

/-- The loop reads a number that is not negative, and does not exceed the policies. -/
theorem putNotification_of_again {n : Notification} {putNext : Bool}
    (hagain : again n p putNext = true) (hcount : 0 ≤ p.count) (store : Store) (failed : Bool) :
    ∃ policy, n.putNotification store failed p = some (if failed then store else
      update store (n.waitKey p) (some ⟨"\x01", policy⟩)) := by
  have hlt : p.count.toNat < n.policies.length := by
    have hlength := of_decide_eq_true (Bool.and_eq_true_iff.mp hagain).2
    omega
  refine ⟨n.policies.get ⟨p.count.toNat, hlt⟩, ?_⟩
  rw [putNotification, if_neg (Int.not_lt.mpr hcount), List.getElem?_eq_getElem hlt]
  rfl

private theorem Steady.deliver (h : s.Steady fleet db) {event : Nat}
    (hadmits : s.Admits puts false (.deliver i event)) (hstep : s.deliver i event = some s') :
    s'.Steady fleet db := by
  unfold Subscribers.deliver at hstep
  split_ifs at hstep
  obtain ⟨channel, hchannel, rfl⟩ := Option.map_eq_some_iff.mp hstep
  split
  · exact h.move rfl (by simp [SubscriberPhase.job]) (by simp)
  · next p hdecode =>
    refine h.move rfl ?_ (by simp)
    intro event' p' hjob
    cases hjob
    obtain ⟨key, rfl, hharmless⟩ := h.events channel (List.mem_of_getElem? hchannel)
    have hhears : (fleet i).hears db key = true := by
      have hmatch := hadmits _ hchannel
      rw [h.fleet_eq i] at hmatch
      exact hmatch
    have hcount := hharmless i p hhears hdecode
    have hvalue := decoded_of_decodePayload hdecode
    exact ⟨by dsimp only; omega, hvalue⟩

private theorem Steady.putNext (h : s.Steady fleet db) {failed : Bool}
    (hstep : s.step (.putNext i failed) = some s') : s'.Steady fleet db := by
  simp only [Subscribers.step] at hstep
  split at hstep
  · next event p putNext hphase =>
    split_ifs at hstep with hagain
    obtain ⟨hcount, hvalue⟩ := h.jobs i event p (by rw [hphase]; rfl)
    obtain ⟨policy, hput⟩ := putNotification_of_again hagain hcount s.store failed
    rw [hput] at hstep
    cases hstep
    cases failed with
    | true => exact h.rest
    | false =>
      have hkey := harmless_of_decoded fleet db hcount hvalue
      exact (h.write _ _ fun _ _ _ => hkey _).rest
  · cases hstep

/-- As long as only harmless keys are put, every step keeps it that way. -/
theorem Steady.step (h : s.Steady fleet db)
    (hputs : ∀ i value policy, puts value = true → (fleet i).policies[0]? = some policy →
      0 < policy → Harmless fleet db ((fleet i).waitKey ⟨0, value⟩))
    (hadmits : s.Admits puts false label) (hstep : s.step label = some s') :
    s'.Steady fleet db := by
  cases label with
  | put i p =>
    obtain ⟨store, hput, rfl⟩ := Option.map_eq_some_iff.mp hstep
    obtain ⟨policy, ⟨-, hpolicy⟩, rfl⟩ := Listening.putNotification_eq_some.mp hput
    obtain ⟨count, value⟩ := p
    obtain ⟨rfl, hvalue⟩ := hadmits.resolve_right fun hreuses => nomatch hreuses.1
    rw [h.fleet_eq i] at hpolicy ⊢
    refine h.write _ _ fun item hitem httl => ?_
    cases hitem
    exact hputs i value policy hvalue hpolicy httl
  | expire key =>
    simp only [Subscribers.step] at hstep
    split at hstep
    · next item hitem =>
      split_ifs at hstep with httl
      cases hstep
      have hwritten := h.writeLasting key none (by simp)
      refine ⟨h.fleet_eq, h.db_eq, hwritten.keys, ?_, h.jobs, h.alive⟩
      intro channel hchannel
      rcases List.mem_append.mp hchannel with hold | hnew
      · exact h.events channel hold
      · rw [List.mem_singleton.mp hnew, h.db_eq]
        exact ⟨key, rfl, h.keys key item hitem httl⟩
    · cases hstep
  | deliver i event => exact h.deliver hadmits hstep
  | putNext i failed => exact h.putNext hstep
  | setNX i failed =>
    cases step_moves hstep with
    | acquire hphase _ =>
      refine (h.writeLasting _ _ ?_).proceed (by rw [hphase]; rfl) (by simp)
      simp
    | busy hphase => exact h.proceed (by rw [hphase]; rfl) (by simp)
  | get i failed =>
    cases step_moves hstep with
    | own hphase _ => exact h.proceed (by rw [hphase]; rfl) (by simp)
    | turnDown _ => exact h.rest
  | handle i putNext =>
    cases step_moves hstep with
    | @handle _ event p _ hphase =>
      have hhandled : { s with handled := (event, i) :: s.handled }.Steady fleet db :=
        ⟨h.fleet_eq, h.db_eq, h.keys, h.events, h.jobs, h.alive⟩
      refine hhandled.proceed ?_ (by simp)
      exact (congrArg SubscriberPhase.job hphase).symm
  | unlock i failed =>
    cases step_moves hstep with
    | keep _ => exact h.rest
    | unlock _ =>
      refine (h.writeLasting _ _ ?_).rest
      simp

end Steady

section Safety

variable [DecidableEq ι] {fleet : ι → Notification} {db : Nat} {puts : String → Bool}
  {reuses : Bool}

private theorem steady_of_reachable {s : Subscribers ι}
    (h : (retries fleet db puts false).Reachable s)
    (hputs : ∀ i value policy, puts value = true → (fleet i).policies[0]? = some policy →
      0 < policy → Harmless fleet db ((fleet i).waitKey ⟨0, value⟩)) :
    s.Steady fleet db := by
  refine h.invariant (fun _ => steady_of_opening) ?_
  intro s label s' hs hstep
  cases label with
  | own label =>
    obtain ⟨hadmits, hstep⟩ := Option.ite_none_right_eq_some.mp hstep
    exact hs.step hputs hadmits hstep
  | rewrite i value => cases hstep

/-- The processes before anything has happened. -/
def opened (fleet : ι → Notification) (db : Nat) : Subscribers ι :=
  ⟨fun i => ⟨fleet i, 0, .idle, []⟩, fun _ => none, db, [], []⟩

omit [DecidableEq ι] in
private theorem opening_opened (fleet : ι → Notification) (db : Nat) :
    Opening fleet db (opened fleet db) :=
  ⟨fun _ => ⟨0, rfl⟩, rfl, rfl, rfl, rfl⟩

/-- A value is put and its key expires. -/
theorem run_put_expire {i : ι} {value : String} {policy : Int} (hvalue : puts value = true)
    (hpolicy : (fleet i).policies[0]? = some policy) (hpositive : 0 < policy) :
    (retries fleet db puts reuses).run (opened fleet db)
      [.own (.put i ⟨0, value⟩), .own (.expire ((fleet i).waitKey ⟨0, value⟩))] =
      some { opened fleet db with
        events := [keyspaceChannel db ((fleet i).waitKey ⟨0, value⟩)] } := by
  simp [System.run, retries, Admits, Subscribers.step, opened, putNotification,
    hvalue, hpolicy, hpositive]

/-- A process that waits for its first message hears it and calls its handler. -/
theorem run_handle {s : Subscribers ι} {j : ι} {channel : String}
    (hidle : s.subscribers j = ⟨fleet j, 0, .idle, []⟩) (hevents : s.events[0]? = some channel)
    (hstore : s.store = fun _ => none) (hhears : globMatches (fleet j).space channel = true)
    (hdecode : decodePayload channel = .ok p) :
    ((retries fleet db puts reuses).run s
        [.own (.deliver j 0), .own (.setNX j false), .own (.handle j true)]).map
        (fun t => ((t.subscribers j).phase, t.given (p.count + 1))) =
      some (.answered 0 { p with count := p.count + 1 } true, true) := by
  simp [System.run, retries, Admits, Subscribers.step, Subscribers.deliver, Subscribers.setNX,
    receive, enter, given, hidle, hevents, hstore, hhears, hdecode]

/-- The payload of a value that is put and heard is given to the handler. -/
theorem exists_handled (fleet : ι → Notification) (puts : String → Bool) (reuses : Bool) (i j : ι)
    (value : String) {policy : Int} (hvalue : puts value = true)
    (hpolicy : (fleet i).policies[0]? = some policy) (hpositive : 0 < policy)
    (hhears : (fleet j).hears db ((fleet i).waitKey ⟨0, value⟩) = true)
    (hdecode : decodePayload (keyspaceChannel db ((fleet i).waitKey ⟨0, value⟩)) = .ok p) :
    ∃ s, (retries fleet db puts reuses).Reachable s ∧ s.given (p.count + 1) = true ∧
      (s.subscribers j).phase = .answered 0 { p with count := p.count + 1 } true := by
  have hput : (retries fleet db puts reuses).run (opened fleet db) _ = _ :=
    run_put_expire hvalue hpolicy hpositive
  generalize hs : ({ opened fleet db with
    events := [keyspaceChannel db ((fleet i).waitKey ⟨0, value⟩)] } : Subscribers ι) = s at hput
  have hhandled : ((retries fleet db puts reuses).run s _).map _ = _ :=
    run_handle (by rw [← hs]; rfl) (by rw [← hs]; rfl) (by rw [← hs]; rfl) hhears hdecode
  obtain ⟨t, hhandle, ht⟩ := Option.map_eq_some_iff.mp hhandled
  obtain ⟨hphase, hgiven⟩ := Prod.mk.inj ht
  exact ⟨t, ⟨_, _, opening_opened fleet db, (System.run_append_iff _).mpr ⟨s, hput, hhandle⟩⟩,
    hgiven, hphase⟩

/-- A payload with a negative number cannot be put again. -/
theorem step_putNext_crashed {s : Subscribers ι} {j : ι}
    (hphase : (s.subscribers j).phase = .answered 0 p true) (hnegative : p.count < 0) :
    (retries fleet db puts reuses).step s (.own (.putNext j false)) =
      some (s.enter j .crashed) := by
  have hagain : p.count < (s.subscribers j).notification.policies.length := by omega
  simp [retries, Admits, Subscribers.step, hphase, again, putNotification, hagain,
    hnegative]

/-- The loop panics on a number that is negative after it was increased. -/
theorem crash_of_negative (i j : ι) (value : String) {policy : Int} (hvalue : puts value = true)
    (hpolicy : (fleet i).policies[0]? = some policy) (hpositive : 0 < policy)
    (hhears : (fleet j).hears db ((fleet i).waitKey ⟨0, value⟩) = true)
    (hdecode : decodePayload (keyspaceChannel db ((fleet i).waitKey ⟨0, value⟩)) = .ok p)
    (hnegative : p.count < -1) :
    ∃ s, (retries fleet db puts reuses).Reachable s ∧ (s.subscribers j).phase = .crashed := by
  obtain ⟨s, hs, -, hphase⟩ :=
    exists_handled fleet puts reuses i j value hvalue hpolicy hpositive hhears hdecode
  exact ⟨_, hs.step (step_putNext_crashed hphase (by dsimp only; omega)), by simp [enter]⟩

/-- When no handler reuses its payload, no index is out of range exactly when every process that
puts a value has a policy, and every value whose key expires and is heard leads to a number that is
not negative. -/
theorem index_safe_iff (fleet : ι → Notification) (db : Nat) (puts : String → Bool) :
    IndexSafe fleet db puts false ↔
      (∀ i value, puts value = true → (fleet i).policies ≠ []) ∧
      ∀ i j value policy p, puts value = true → (fleet i).policies[0]? = some policy → 0 < policy →
        (fleet j).hears db ((fleet i).waitKey ⟨0, value⟩) = true →
        decodePayload (keyspaceChannel db ((fleet i).waitKey ⟨0, value⟩)) = .ok p →
        -1 ≤ p.count := by
  constructor
  · intro hsafe
    refine ⟨fun i value hvalue hnone => ?_, ?_⟩
    · have hput := (hsafe _ ⟨_, [], opening_opened fleet db, rfl⟩).1 i ⟨0, value⟩
        (.inl ⟨rfl, hvalue⟩)
      simp [putNotification, hnone] at hput
    · intro i j value policy p hvalue hpolicy hpositive hhears hdecode
      by_contra hnegative
      obtain ⟨s, hs, hcrashed⟩ :=
        crash_of_negative i j value hvalue hpolicy hpositive hhears hdecode (by omega)
      exact (hsafe s hs).2 j hcrashed
  · rintro ⟨hpolicies, hcounts⟩ s hs
    have hsteady := steady_of_reachable hs fun i value policy hvalue hpolicy hpositive j p =>
      hcounts i j value policy p hvalue hpolicy hpositive
    refine ⟨?_, hsteady.alive⟩
    rintro i ⟨count, value⟩ (⟨rfl, hvalue⟩ | ⟨hreuses, -⟩)
    · obtain ⟨policy, rest, hlist⟩ := List.exists_cons_of_ne_nil (hpolicies i value hvalue)
      simp [putNotification, hlist]
    · cases hreuses

end Safety

/-- A value with bars and a negative number takes the process down when its key expires; without
policies the first payload that is put panics; and with a single policy a handler panics that puts
the payload again that it was given. -/
theorem policies_index_out_of_range :
    (∃ s, (retries (fun _ : Unit => orderNotification) 0 (· = "x||-5")
        false).Reachable s ∧ (s.subscribers ()).phase = .crashed) ∧
    (∃ n, newNotification "node-1" "orders" (some ⟨"shop"⟩) (some []) = some n ∧
      n.putNotification (fun _ => none) false ⟨0, "order-7"⟩ = none) ∧
    ∃ n s, newNotification "node-1" "orders" (some ⟨"shop"⟩) (some [60]) = some n ∧
      (retries (fun _ : Unit => n) 0 (· = "order-7") true).Reachable s ∧
      s.Admits (· = "order-7") true (.put () ⟨1, "order-7"⟩) ∧
      n.putNotification s.store false ⟨1, "order-7"⟩ = none := by
  refine ⟨?_, ⟨_, rfl, rfl⟩, ?_⟩
  · have hdecode : decodePayload (keyspaceChannel 0
        (orderNotification.waitKey ⟨0, "x||-5"⟩)) = .ok ⟨-5, "x"⟩ := by
      decide +kernel
    exact crash_of_negative () () "x||-5" (by decide) rfl (by decide) (by decide +kernel) hdecode
      (by decide)
  · obtain ⟨n, hn⟩ : ∃ n, newNotification "node-1" "orders" (some ⟨"shop"⟩) (some [60]) = some n :=
      ⟨_, rfl⟩
    have hhears : n.hears 0 (n.waitKey ⟨0, "order-7"⟩) = true := by
      cases hn
      decide +kernel
    have hdecode : decodePayload (keyspaceChannel 0 (n.waitKey ⟨0, "order-7"⟩)) =
        .ok ⟨0, "order-7"⟩ := by
      cases hn
      decide +kernel
    have hpolicies : n.policies = [60] := by
      cases hn
      rfl
    obtain ⟨s, hs, hgiven, -⟩ := exists_handled (fun _ : Unit => n) (· = "order-7") true () ()
      "order-7" (by decide) (by rw [hpolicies]; rfl) (by decide) hhears hdecode
    refine ⟨n, s, hn, hs, .inr ⟨rfl, hgiven⟩, ?_⟩
    simp [putNotification, hpolicies]

end Stardust.Redis.Subscribers
