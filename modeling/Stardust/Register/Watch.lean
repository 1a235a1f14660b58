import Stardust.Core.System
import Stardust.Register.Etcd

/-!
# Watching the instances of a service

A watcher reads the list of instances once, sends it, and only then creates its watch; from
then on it reads the list again for each notification. Changes to etcd come at any time
between these steps. A watch without a start revision notifies of the changes made after it
was created, so a change between the first read and the creation is not notified.
-/

namespace Stardust.Register

open Stardust.Core

/-- A change to etcd by any of its clients, or by the expiry of a lease. -/
inductive Change where
  | grant (ttl : Int)
  | put (entry : Entry String Value)
  | delete (key : String)
  | revoke (lease : Nat)
  deriving DecidableEq, Repr

namespace Change

/-- Apply a change, which needs the lease it names to be in force. -/
def apply (etcd : Etcd) : Change → Option Etcd
  | .grant ttl => some (etcd.grant ttl)
  | .put entry => etcd.put entry
  | .delete key => some (etcd.delete key)
  | .revoke lease => etcd.revoke lease

/-- A watch on a range reports the change. -/
def touches (etcd : Etcd) (range : String) : Change → Bool
  | .grant _ => false
  | .put entry => under range entry.key
  | .delete key => under range key
  | .revoke lease => (etcd.range (under range)).any (·.lease = lease)

/-- A change that no watch on a range reports leaves the range as it was. -/
theorem range_apply {etcd etcd' : Etcd} {range : String} {change : Change}
    (h : change.apply etcd = some etcd') (hquiet : change.touches etcd range = false) :
    etcd'.range (under range) = etcd.range (under range) := by
  cases change with
  | grant ttl =>
    cases h
    rfl
  | put entry => exact LeaseStore.range_put h hquiet
  | delete key =>
    cases h
    exact LeaseStore.range_delete hquiet
  | revoke lease =>
    refine LeaseStore.range_revoke h fun entry hentry => ?_
    simpa using List.any_eq_false.mp hquiet entry hentry

end Change

/-- Where a watcher stands. -/
inductive WatchPhase where
  /-- About to read the first list. -/
  | reading
  /-- About to send the first list. -/
  | snapshot (services : List ServiceInfo)
  /-- The goroutine is started and has not created its watch. -/
  | starting
  /-- Waiting for a notification. -/
  | watching
  /-- About to read the list after a notification. -/
  | notified
  /-- About to send a list that was read after a notification. -/
  | sending (services : List ServiceInfo)
  /-- The first read failed, and with it the call. -/
  | failed (err : String)
  /-- The goroutine has closed the channel. -/
  | ended
  deriving DecidableEq, Repr

/-- An address as the resolver hands it to the connection. -/
structure Address where
  /-- The host and the port. -/
  addr : String
  serverName : String
  deriving DecidableEq, Repr

/-- The address of an instance. -/
def resolverAddress (svc : ServiceInfo) : Address :=
  ⟨svc.address ++ ":" ++ toString svc.port, svc.name⟩

/-- A watcher, etcd, the channel between the watcher and a resolver, and the resolver. -/
structure Watcher where
  /-- The register whose watch it is. -/
  register : EtcdRegister
  serviceName : String
  etcd : Etcd
  phase : WatchPhase
  /-- How many changes the watch has still to report. -/
  pending : Nat
  /-- The list in the channel. -/
  buffer : Option (List ServiceInfo)
  /-- All lists sent on the channel so far. -/
  sent : List (List ServiceInfo)
  cancelled : Bool
  /-- The addresses that the resolver last reported. -/
  addresses : Option (List Address)

/-- The steps of a watcher and of what surrounds it. -/
inductive WatchLabel where
  | change (change : Change)
  /-- The first read, with its error where it fails. -/
  | getSnapshot (fault : Option String)
  /-- The first list is sent. -/
  | sendSnapshot
  | watch
  /-- A notification of one or more changes arrives. -/
  | deliver (events : Nat)
  /-- The read after a notification, with its error where it fails. -/
  | getService (fault : Option String)
  /-- The list read is sent. -/
  | send
  /-- The resolver takes a list from the channel. -/
  | receive
  /-- The context is cancelled. -/
  | cancel
  /-- The goroutine notices that its context is done. -/
  | leave
  deriving DecidableEq, Repr

variable {w w' : Watcher} {label : WatchLabel}

namespace Watcher

/-- The instances of the service at this moment. -/
def current (w : Watcher) : List ServiceInfo := w.register.services w.etcd w.serviceName

/-- The watch exists. -/
def subscribed (w : Watcher) : Bool :=
  match w.phase with
  | .watching | .notified | .sending _ => true
  | _ => false

/-- Changes reported by the watch wait for the watcher. -/
def onChange (w : Watcher) (change : Change) : Option Watcher :=
  (change.apply w.etcd).map fun etcd =>
    { w with
      etcd := etcd
      pending :=
        if w.subscribed && change.touches w.etcd (w.register.serviceRange w.serviceName) then
          w.pending + 1
        else w.pending }

/-- Put a list into the channel, which holds one at a time. -/
def emit (w : Watcher) (services : List ServiceInfo) (next : WatchPhase) : Option Watcher :=
  if w.buffer = none then
    some { w with buffer := some services, sent := w.sent ++ [services], phase := next }
  else none

/-- One step. -/
def step (w : Watcher) : WatchLabel → Option Watcher
  | .change change => w.onChange change
  | .getSnapshot fault =>
    match w.phase, w.register.getService w.etcd fault w.serviceName with
    | .reading, .ok services => some { w with phase := .snapshot services }
    | .reading, .error err => some { w with phase := .failed err }
    | _, _ => none
  | .sendSnapshot =>
    match w.phase with
    | .snapshot services => w.emit services .starting
    | _ => none
  | .watch =>
    if w.phase = .starting ∧ w.cancelled = false then
      some { w with phase := .watching, pending := 0 }
    else none
  | .deliver events =>
    if w.phase = .watching ∧ 0 < events ∧ events ≤ w.pending then
      some { w with phase := .notified, pending := w.pending - events }
    else none
  | .getService fault =>
    match w.phase, w.register.getService w.etcd fault w.serviceName with
    | .notified, .ok services => some { w with phase := .sending services }
    | .notified, .error _ => some { w with phase := .watching }
    | _, _ => none
  | .send =>
    match w.phase with
    | .sending services => w.emit services .watching
    | _ => none
  | .receive =>
    w.buffer.map fun services =>
      { w with buffer := none, addresses := some (services.map resolverAddress) }
  | .cancel => some { w with cancelled := true }
  | .leave =>
    match w.cancelled, w.phase with
    | true, .starting | true, .watching | true, .sending _ => some { w with phase := .ended }
    | _, _ => none

/-- A call of `Watch` that has done nothing yet. -/
def Idle (w : Watcher) : Prop :=
  w.phase = .reading ∧ w.pending = 0 ∧ w.buffer = none ∧ w.sent = [] ∧ w.cancelled = false ∧
    w.addresses = none

/-- The runs of one watcher among all changes to etcd. -/
def watchers : System Watcher WatchLabel := ⟨Idle, step⟩

/-- Once every notification is processed, the last list sent is the current one. -/
def UpToDate (w : Watcher) : Prop :=
  w.phase = .watching → w.pending = 0 → w.sent.getLast? = some w.current

/-- The watch is created while the list sent first is still the current one, and a read that
fails is followed by another notification or has nothing to report. -/
def Covers (w : Watcher) : WatchLabel → Prop
  | .watch => w.sent.getLast? = some w.current
  | .getService (some _) => w.pending = 0 → w.sent.getLast? = some w.current
  | _ => True

instance (w : Watcher) : ∀ label, Decidable (w.Covers label)
  | .watch => inferInstanceAs (Decidable (w.sent.getLast? = some w.current))
  | .getService (some _) =>
    inferInstanceAs (Decidable (w.pending = 0 → w.sent.getLast? = some w.current))
  | .change _ | .getSnapshot _ | .sendSnapshot | .deliver _ | .getService none | .send | .receive
  | .cancel | .leave => isTrue trivial

/-- A list about to be sent is the current one unless a notification is outstanding. -/
def Settled (w : Watcher) : Prop :=
  ∀ services, w.phase = .sending services → w.pending = 0 → services = w.current

/-- Changes do not move the watcher, and one that changes the list while there is a watch is
notified. -/
theorem onChange_spec {change : Change} (h : w.onChange change = some w') :
    w'.phase = w.phase ∧ w'.sent = w.sent ∧
      (w.subscribed = true → w'.pending = 0 → w.pending = 0 ∧ w'.current = w.current) := by
  obtain ⟨etcd, happly, rfl⟩ := Option.map_eq_some_iff.mp h
  refine ⟨rfl, rfl, fun hsub hpending => ?_⟩
  have hquiet : change.touches w.etcd (w.register.serviceRange w.serviceName) = false := by
    by_contra htouch
    simp [hsub, Bool.eq_true_of_not_eq_false htouch] at hpending
  refine ⟨by simpa [hquiet] using hpending, ?_⟩
  unfold current EtcdRegister.services
  rw [Change.range_apply happly hquiet]

/-- The steps by their effects. -/
inductive Moves (w : Watcher) : WatchLabel → Watcher → Prop
  | change {change : Change} {w' : Watcher} (h : w.onChange change = some w') :
    Moves w (.change change) w'
  | read (h : w.phase = .reading) :
    Moves w (.getSnapshot none) { w with phase := .snapshot w.current }
  | readFailed {err : String} (h : w.phase = .reading) :
    Moves w (.getSnapshot (some err)) { w with phase := .failed err }
  | sentSnapshot {services : List ServiceInfo} (h : w.phase = .snapshot services)
    (hbuffer : w.buffer = none) :
    Moves w .sendSnapshot
      { w with buffer := some services, sent := w.sent ++ [services], phase := .starting }
  | watched (h : w.phase = .starting) : Moves w .watch { w with phase := .watching, pending := 0 }
  | delivered {events : Nat} (h : w.phase = .watching) :
    Moves w (.deliver events) { w with phase := .notified, pending := w.pending - events }
  | reread (h : w.phase = .notified) :
    Moves w (.getService none) { w with phase := .sending w.current }
  | rereadFailed {err : String} (h : w.phase = .notified) :
    Moves w (.getService (some err)) { w with phase := .watching }
  | sent {services : List ServiceInfo} (h : w.phase = .sending services)
    (hbuffer : w.buffer = none) :
    Moves w .send
      { w with buffer := some services, sent := w.sent ++ [services], phase := .watching }
  | received {services : List ServiceInfo} (h : w.buffer = some services) :
    Moves w .receive
      { w with buffer := none, addresses := some (services.map resolverAddress) }
  | cancelled : Moves w .cancel { w with cancelled := true }
  | left : Moves w .leave { w with phase := .ended }

/-- Putting a list into the channel needs it to be empty. -/
theorem emit_spec {services : List ServiceInfo} {next : WatchPhase}
    (h : w.emit services next = some w') : w.buffer = none ∧
      w' = { w with buffer := some services, sent := w.sent ++ [services], phase := next } := by
  unfold emit at h
  split at h
  · next hbuffer => exact ⟨hbuffer, (Option.some.inj h).symm⟩
  · cases h

/-- Every step has one of the effects. -/
theorem step_moves (h : w.step label = some w') : w.Moves label w' := by
  cases label with
  | change change => exact .change h
  | getSnapshot fault =>
    cases fault <;> simp only [step, EtcdRegister.getService] at h <;> split at h <;> cases h
    · next hphase hread =>
      cases hread
      exact .read hphase
    · next hread => cases hread
    · next hread => cases hread
    · next hphase hread =>
      cases hread
      exact .readFailed hphase
  | sendSnapshot =>
    simp only [step] at h
    split at h
    · next hphase =>
      obtain ⟨hbuffer, rfl⟩ := emit_spec h
      exact .sentSnapshot hphase hbuffer
    · cases h
  | watch =>
    simp only [step] at h
    split at h <;> cases h
    next hphase => exact .watched hphase.1
  | deliver events =>
    simp only [step] at h
    split at h <;> cases h
    next hphase => exact .delivered hphase.1
  | getService fault =>
    cases fault <;> simp only [step, EtcdRegister.getService] at h <;> split at h <;> cases h
    · next hphase hread =>
      cases hread
      exact .reread hphase
    · next hread => cases hread
    · next hread => cases hread
    · next hphase hread => exact .rereadFailed hphase
  | send =>
    simp only [step] at h
    split at h
    · next hphase =>
      obtain ⟨hbuffer, rfl⟩ := emit_spec h
      exact .sent hphase hbuffer
    · cases h
  | receive =>
    obtain ⟨services, hbuffer, rfl⟩ := Option.map_eq_some_iff.mp h
    exact .received hbuffer
  | cancel =>
    cases h
    exact .cancelled
  | leave =>
    simp only [step] at h
    split at h <;> cases h <;> exact .left

private theorem Idle.settled {w : Watcher} (h : w.Idle) : w.Settled := by
  intro services hphase
  simp [h.1] at hphase

private theorem Idle.upToDate {w : Watcher} (h : w.Idle) : w.UpToDate := by
  intro hphase
  simp [h.1] at hphase

/-- A list is read after the notifications delivered so far, so it is the current one until
the next notification. -/
theorem Settled.step (hs : w.Settled) (h : w.step label = some w') : w'.Settled := by
  intro services hphase hpending
  cases step_moves h with
  | change h =>
    obtain ⟨hsame, -, hcurrent⟩ := onChange_spec h
    rw [hsame] at hphase
    obtain ⟨hzero, heq⟩ := hcurrent (by simp [subscribed, hphase]) hpending
    rw [heq]
    exact hs services hphase hzero
  | reread =>
    cases hphase
    rfl
  | received | cancelled => exact hs services hphase hpending
  | read | readFailed | sentSnapshot | watched | delivered | rereadFailed | sent | left =>
    cases hphase

/-- What a step does to a watcher that is up to date. -/
theorem upToDate_step (hs : w.Settled) (hu : w.UpToDate) (h : w.step label = some w') :
    w'.UpToDate ↔ w.Covers label := by
  cases step_moves h with
  | change h =>
    refine iff_of_true (fun hphase hpending => ?_) trivial
    obtain ⟨hsame, hsent, hcurrent⟩ := onChange_spec h
    rw [hsame] at hphase
    obtain ⟨hzero, heq⟩ := hcurrent (by simp [subscribed, hphase]) hpending
    rw [heq, hsent]
    exact hu hphase hzero
  | watched => exact ⟨fun hu' => hu' rfl rfl, fun hcovers _ _ => hcovers⟩
  | rereadFailed => exact ⟨fun hu' => hu' rfl, fun hcovers _ => hcovers⟩
  | @sent services hphase =>
    refine iff_of_true (fun _ hpending => ?_) trivial
    have hlast : (w.sent ++ [services]).getLast? = some services := List.getLast?_concat
    exact hlast.trans (congrArg some (hs services hphase hpending))
  | received | cancelled => exact iff_of_true hu trivial
  | read | readFailed | sentSnapshot | delivered | reread | left =>
    exact iff_of_true nofun trivial

/-- A watcher is up to date in all quiet states of a run exactly when nothing changed between
its first read and the creation of its watch, and no failed read was the last. -/
theorem watch_up_to_date_iff_covers {labels : List WatchLabel} (hinit : watchers.init w)
    (hrun : watchers.run w labels = some w') :
    (∀ before after t, labels = before ++ after → watchers.run w before = some t → t.UpToDate) ↔
      watchers.Guarded Covers w labels :=
  watchers.forall_states_iff_guarded (fun _ _ _ hs hstep => Settled.step hs hstep)
    (fun _ _ _ hs hu hstep => upToDate_step hs hu hstep) (Idle.settled hinit)
    (Idle.upToDate hinit) hrun

/-- A watcher on an empty store. -/
def newWatcher : Watcher :=
  ⟨newEtcdRegister ⟨0⟩, "users", LeaseStore.empty, .reading, 0, none, [], false, none⟩

private theorem newWatcher_init : watchers.init newWatcher := ⟨rfl, rfl, rfl, rfl, rfl, rfl⟩

/-- An instance that appears without a lease. -/
def appears : Change :=
  .put ⟨"/services/users/a", .service ⟨"users", "a", "10.0.0.1", 8080, [], []⟩, 0⟩

/-- An instance that appears while the watch exists is sent. -/
theorem watch_sends_notified_change :
    watchers.Guarded Covers newWatcher [.getSnapshot none, .sendSnapshot, .watch, .receive,
        .change appears, .deliver 1, .getService none, .send] ∧
      ∃ w', watchers.run newWatcher [.getSnapshot none, .sendSnapshot, .watch, .receive,
        .change appears, .deliver 1, .getService none, .send] = some w' ∧
        w'.current ≠ [] ∧ w'.UpToDate := by
  have hguard : watchers.Guarded Covers newWatcher [.getSnapshot none, .sendSnapshot, .watch,
      .receive, .change appears, .deliver 1, .getService none, .send] := by
    decide
  refine ⟨hguard, _, rfl, by decide, ?_⟩
  exact (watch_up_to_date_iff_covers newWatcher_init rfl).mpr hguard _ [] _
    (List.append_nil _).symm rfl

/-- An instance that appears between the first list and the watch is not sent. -/
theorem watch_misses_change_before_watch : ∃ w', watchers.init newWatcher ∧
      watchers.run newWatcher [.getSnapshot none, .sendSnapshot, .change appears, .watch] =
        some w' ∧
      w'.phase = .watching ∧ w'.pending = 0 ∧ w'.sent = [[]] ∧
      w'.current = [⟨"users", "a", "10.0.0.1", 8080, [], []⟩] ∧ ¬ w'.UpToDate := by
  refine ⟨_, newWatcher_init, rfl, rfl, rfl, rfl, by decide, fun hu => ?_⟩
  exact absurd (hu rfl rfl) (by decide)

/-- The channel holds the last list sent, or the resolver has reported it. -/
structure Follows (w : Watcher) : Prop where
  /-- The list in the channel is the last one sent. -/
  buffered : ∀ services ∈ w.buffer, w.sent.getLast? = some services
  /-- With the channel empty, the resolver has reported the last list sent. -/
  reported : w.buffer = none → w.addresses = w.sent.getLast?.map (·.map resolverAddress)

private theorem Follows.step (hf : w.Follows) (h : w.step label = some w') : w'.Follows := by
  cases step_moves h with
  | change h =>
    obtain ⟨etcd, -, rfl⟩ := Option.map_eq_some_iff.mp h
    exact ⟨hf.buffered, hf.reported⟩
  | sentSnapshot | sent =>
    refine ⟨fun services hservices => ?_, nofun⟩
    cases hservices
    exact List.getLast?_concat
  | received hbuffer =>
    refine ⟨nofun, fun _ => ?_⟩
    rw [hf.buffered _ hbuffer]
    rfl
  | read | readFailed | watched | delivered | reread | rereadFailed | cancelled | left =>
    exact ⟨hf.buffered, hf.reported⟩

/-- In every run, a resolver that has emptied the channel reports the last list sent. -/
theorem resolver_follows {w : Watcher} (h : watchers.Reachable w) : w.Follows := by
  refine h.invariant (fun w₀ h₀ => ⟨?_, ?_⟩) fun w label w' hf hstep => hf.step hstep
  · intro services hservices
    simp [h₀.2.2.1] at hservices
  · intro _
    rw [h₀.2.2.2.1, h₀.2.2.2.2.2]
    rfl

/-- A resolver that has nothing left to do reports the addresses of the instances that are
registered, after every run in which the watcher misses no change. -/
theorem resolver_reports_current {labels : List WatchLabel} (hinit : watchers.init w)
    (hrun : watchers.run w labels = some w') (hcovers : watchers.Guarded Covers w labels)
    (hphase : w'.phase = .watching) (hpending : w'.pending = 0) (hbuffer : w'.buffer = none) :
    w'.addresses = some (w'.current.map resolverAddress) := by
  obtain ⟨-, hupToDate⟩ := watchers.run_guarded (P := fun t => t.Settled ∧ t.UpToDate)
    (fun _ _ _ h hc hstep => ⟨h.1.step hstep, (upToDate_step h.1 h.2 hstep).mpr hc⟩)
    ⟨Idle.settled hinit, Idle.upToDate hinit⟩ hcovers hrun
  rw [(resolver_follows ⟨w, labels, hinit, hrun⟩).reported hbuffer, hupToDate hphase hpending]
  rfl

/-- A change that is notified, read and received. -/
def noticed : List WatchLabel :=
  [.getSnapshot none, .sendSnapshot, .watch, .receive, .change appears, .deliver 1,
    .getService none, .send, .receive]

/-- A change is notified, read and sent. -/
theorem resolver_reports_notified_change :
    ∃ w', watchers.run newWatcher noticed = some w' ∧
      w'.addresses = some (w'.current.map resolverAddress) :=
  ⟨_, rfl, @resolver_reports_current _ _ noticed newWatcher_init rfl (by decide) rfl rfl rfl⟩

end Watcher

end Stardust.Register
