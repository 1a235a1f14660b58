import Mathlib.Logic.Function.Basic
import Stardust.Nats.Goroutines

/-!
# Starting and stopping pull subscriptions

In JetStream mode a subscription is recorded by the connection and held by a fetch goroutine. When
a fetch finds no responders, the goroutine makes another subscription, records it too and goes on
with that. The library makes an inbox for every pull subscription, and the name of the inbox is what
the subscription has as its `Subject`. Stopping a subject looks for a subscription by this field,
and so finds none for a subject that was started.
-/

namespace Stardust.Nats

open Stardust.Core Function

/-- A pull subscription. -/
structure Subscription where
  /-- Its number among all that were made. -/
  id : Nat
  /-- The subject that it was made for. -/
  target : String
  /-- The field `Subject`. -/
  subject : String
  deriving DecidableEq

/-- Unsubscribe one subscription, which fails for one that already is. -/
def unsubscribe (closed : List Nat) (fault : Option String) (sub : Subscription) :
    Option String × List Nat :=
  if sub.id ∈ closed then (some "nats: invalid subscription", closed)
  else match fault with
    | some err => (some err, closed)
    | none => (none, sub.id :: closed)

/-- A fetch goroutine with the variables of its closure. -/
structure FetchLoop where
  /-- The subject that was asked for. -/
  target : String
  /-- The messages at which the handler panics. -/
  panics : Msg → Bool
  /-- The subscription that is fetched from. -/
  sub : Subscription
  /-- A subscription of a self-heal that is not recorded yet. -/
  newSub : Option Subscription
  /-- Where the goroutine is. -/
  goroutine : FetchGoroutine

/-- The subscriptions that a goroutine holds. -/
def FetchLoop.held (loop : FetchLoop) : List Subscription :=
  match loop.goroutine.position with
  | .ended _ => []
  | _ => loop.sub :: loop.newSub.toList

/-- What was last done successfully with a subject. -/
inductive SubjectStatus where
  | unused
  | started
  | stopped
  deriving DecidableEq

/-- A connection in JetStream mode with its goroutines. -/
structure PullConnection where
  /-- The field `subject`: the subscriptions recorded. -/
  subject : List Subscription
  /-- The goroutines, by the order in which they were started. -/
  loops : List FetchLoop
  /-- The number of subscriptions made. -/
  made : Nat
  /-- The numbers of those that were unsubscribed. -/
  closed : List Nat
  /-- What the calls that returned without an error have done. -/
  status : String → SubjectStatus
  /-- The context is done. -/
  cancelled : Bool

/-- A step of a connection. Whether the requests for a subscription succeed is an input. -/
inductive PullLabel where
  | startSubscription (target : String) (handler : Option (Msg → Bool)) (ok : Bool)
  /-- A step of a goroutine. -/
  | act (i : Nat) (e : FetchEvent)
  /-- The request of a self-heal for a new subscription succeeds. -/
  | pullSubscribe (i : Nat)
  | stopSubscription (target : String) (fault : Option String)
  | cancel

namespace PullConnection

/-- A connection without subscriptions. -/
def start : PullConnection := ⟨[], [], 0, [], fun _ => .unused, false⟩

/-- The subscriptions held by the connection or one of its goroutines. -/
def held (s : PullConnection) : List Subscription := s.subject ++ s.loops.flatMap FetchLoop.held

/-- Change one goroutine. -/
def setLoop (s : PullConnection) (i : Nat) (loop : FetchLoop) : PullConnection :=
  { s with loops := s.loops.set i loop }

/-- `StopSubscription`: the first subscription with the subject is unsubscribed and its record
removed. With an error nothing changes. -/
def stopSubscription (s : PullConnection) (target : String) (fault : Option String) :
    Option String × PullConnection :=
  match s.subject.find? fun sub => sub.subject = target with
  | none => (some "subject not found", s)
  | some sub =>
    match unsubscribe s.closed fault sub with
    | (some err, _) => (some err, s)
    | (none, closed) =>
      (none, { s with
        subject := s.subject.eraseP fun sub => sub.subject = target
        closed := closed
        status := update s.status target .stopped })

section Runs

variable (inbox : Nat → String)

/-- The next pull subscription. -/
def newSubscription (s : PullConnection) (target : String) : Subscription :=
  ⟨s.made, target, inbox s.made⟩

/-- `StartSubscription`: a subscription is made and recorded, and its goroutine started. With an
error nothing changes. -/
def startSubscription (s : PullConnection) (target : String) (handler : Option (Msg → Bool))
    (ok : Bool) : PullConnection :=
  match handler with
  | none => s
  | some panics =>
    if target = "" ∨ ok = false then s
    else
      let sub := s.newSubscription inbox target
      { s with
        subject := s.subject ++ [sub]
        loops := s.loops ++
          [⟨target, panics, sub, none, { FetchGoroutine.start with cancelled := s.cancelled }⟩]
        made := s.made + 1
        status := update s.status target .started }

/-- A goroutine in a self-heal makes another subscription. -/
def pullSubscribe (s : PullConnection) (i : Nat) (loop : FetchLoop) : Option PullConnection :=
  if loop.goroutine.position = .heal ∧ loop.newSub = none then
    some { s.setLoop i { loop with newSub := some (s.newSubscription inbox loop.target) } with
      made := s.made + 1 }
  else none

/-- A step of a goroutine. At the end of a self-heal that has made a subscription, it records this
and goes on with it. -/
def act (s : PullConnection) (i : Nat) (loop : FetchLoop) (e : FetchEvent) :
    Option PullConnection :=
  (loop.goroutine.step loop.target loop.panics e).bind fun goroutine =>
    match e, loop.newSub with
    | .cancel, _ => none
    | .selfHeal true, some newSub =>
      some { s.setLoop i { loop with sub := newSub, newSub := none, goroutine := goroutine } with
        subject := s.subject ++ [newSub] }
    | .selfHeal true, none | .selfHeal false, some _ => none
    | _, _ => some (s.setLoop i { loop with goroutine := goroutine })

/-- One step of a connection. The goroutines share its context. -/
def step (s : PullConnection) : PullLabel → Option PullConnection
  | .startSubscription target handler ok => some (s.startSubscription inbox target handler ok)
  | .act i e => (s.loops[i]?).bind fun loop => s.act i loop e
  | .pullSubscribe i => (s.loops[i]?).bind fun loop => s.pullSubscribe inbox i loop
  | .stopSubscription target fault => some (s.stopSubscription target fault).2
  | .cancel =>
    some { s with
      cancelled := true
      loops := s.loops.map fun loop =>
        { loop with goroutine := { loop.goroutine with cancelled := true } } }

/-- All runs of a connection whose subscriptions get these inboxes. -/
def connections : System PullConnection PullLabel where
  init s := s = start
  step := step inbox

end Runs

/-- No live subscription is held for a stopped subject, by the subject that it was made for or by
its field. -/
def Stopped (s : PullConnection) : Prop :=
  ∀ sub ∈ s.held, s.status sub.target = .stopped ∨ s.status sub.subject = .stopped →
    sub.id ∈ s.closed

/-- The subjects that are started are not names of inboxes. -/
def Fresh (inbox : Nat → String) : PullLabel → Prop
  | .startSubscription target _ _ => ∀ k, target ≠ inbox k
  | _ => True

/-- What the names tell in every run. -/
structure Named (inbox : Nat → String) (s : PullConnection) : Prop where
  /-- A subscription has its inbox as `Subject`. -/
  subject_eq : ∀ sub ∈ s.held, sub.subject = inbox sub.id
  /-- What it was made for is not an inbox. -/
  target_ne : ∀ sub ∈ s.held, ∀ k, sub.target ≠ inbox k
  /-- Neither is what a goroutine makes more subscriptions for. -/
  loop_ne : ∀ loop ∈ s.loops, ∀ k, loop.target ≠ inbox k
  /-- Only inboxes were stopped, and their subscriptions unsubscribed. -/
  stopped : ∀ target, s.status target = .stopped → ∃ k ∈ s.closed, target = inbox k

variable {inbox : Nat → String} {s s' : PullConnection} {l : PullLabel} {i : Nat}
  {loop loop' : FetchLoop} {sub : Subscription}

/-- What a goroutine holds is held. -/
theorem mem_held_of_loop (hloop : s.loops[i]? = some loop) (hsub : sub ∈ loop.held) :
    sub ∈ s.held :=
  List.mem_append_right _ (List.mem_flatMap.mpr ⟨loop, List.mem_of_getElem? hloop, hsub⟩)

/-- A goroutine that moves adds to what is held only what it holds in addition. -/
theorem held_setLoop_subset (extra : List Subscription) (hloop : s.loops[i]? = some loop)
    (hheld : loop'.held ⊆ extra ++ loop.held) : (s.setLoop i loop').held ⊆ extra ++ s.held := by
  intro sub hsub
  rcases List.mem_append.mp hsub with hsub | hsub
  · exact List.mem_append_right _ (List.mem_append_left _ hsub)
  · obtain ⟨other, hother, hin⟩ := List.mem_flatMap.mp hsub
    rcases List.mem_or_eq_of_mem_set hother with hmem | rfl
    · exact List.mem_append_right _ (List.mem_append_right _
        (List.mem_flatMap.mpr ⟨other, hmem, hin⟩))
    · rcases List.mem_append.mp (hheld hin) with hin | hin
      · exact List.mem_append_left _ hin
      · exact List.mem_append_right _ (mem_held_of_loop hloop hin)

/-- A goroutine that has not ended holds its subscriptions. -/
theorem FetchLoop.held_of_running (hrunning : ∀ left, loop.goroutine.position ≠ .ended left) :
    loop.held = loop.sub :: loop.newSub.toList := by
  unfold FetchLoop.held
  split
  · rename_i left hleft
    exact absurd hleft (hrunning left)
  · rfl

/-- A goroutine only ever holds its subscriptions. -/
theorem FetchLoop.held_subset : loop.held ⊆ loop.sub :: loop.newSub.toList := by
  unfold FetchLoop.held
  split
  · exact List.nil_subset _
  · exact List.Subset.refl _

/-- A goroutine that moves has not ended before, unless the context is cancelled. -/
theorem position_of_step {subject : String} {panics : Msg → Bool} {g g' : FetchGoroutine}
    {e : FetchEvent} (he : e ≠ .cancel) (h : g.step subject panics e = some g')
    (left : List Msg) : g.position ≠ .ended left := by
  intro hended
  cases e with
  | cancel => exact he rfl
  | _ => simp [FetchGoroutine.step, hended] at h

/-- A step that makes no subscription and unsubscribes none. -/
structure Kept (s s' : PullConnection) : Prop where
  /-- Nothing is added to what is held. -/
  held : s'.held ⊆ s.held
  /-- Nothing is unsubscribed. -/
  closed : s'.closed = s.closed
  /-- No subject is started or stopped. -/
  status : s'.status = s.status
  /-- The goroutines keep their subjects. -/
  loops : ∀ loop' ∈ s'.loops, ∃ loop ∈ s.loops, loop'.target = loop.target

/-- What the names tell does not change then. -/
theorem Named.kept (h : s.Named inbox) (hkept : s.Kept s') : s'.Named inbox where
  subject_eq sub hsub := h.subject_eq sub (hkept.held hsub)
  target_ne sub hsub := h.target_ne sub (hkept.held hsub)
  loop_ne loop' hloop' := by
    obtain ⟨loop, hloop, heq⟩ := hkept.loops loop' hloop'
    rw [heq]
    exact h.loop_ne loop hloop
  stopped := by
    rw [hkept.closed, hkept.status]
    exact h.stopped

/-- A goroutine that moves keeps its subject, and so do the others. -/
theorem target_of_mem_setLoop (hloop : s.loops[i]? = some loop)
    (htarget : loop'.target = loop.target) {other : FetchLoop}
    (hother : other ∈ (s.setLoop i loop').loops) :
    ∃ loop ∈ s.loops, other.target = loop.target := by
  rcases List.mem_or_eq_of_mem_set hother with hmem | rfl
  · exact ⟨other, hmem, rfl⟩
  · exact ⟨loop, List.mem_of_getElem? hloop, htarget⟩

/-- A goroutine that records what it holds, or goes on, makes no subscription. -/
theorem kept_of_act {e : FetchEvent} (hloop : s.loops[i]? = some loop)
    (h : s.act i loop e = some s') : s.Kept s' := by
  obtain ⟨goroutine, hstep, h⟩ := Option.bind_eq_some_iff.mp h
  by_cases hcancel : e = .cancel
  · subst hcancel
    cases h
  have hheld : loop.held = loop.sub :: loop.newSub.toList :=
    FetchLoop.held_of_running (position_of_step hcancel hstep)
  have htarget : ∀ loop' : FetchLoop, loop'.target = loop.target →
      ∀ other ∈ (s.setLoop i loop').loops, ∃ loop ∈ s.loops, other.target = loop.target :=
    fun _ htarget _ => target_of_mem_setLoop hloop htarget
  split at h
  · cases h
  · rename_i newSub hnew _
    obtain rfl := Option.some.inj h
    rw [hnew] at hheld
    have hnewSub : newSub ∈ s.held := by
      refine mem_held_of_loop hloop ?_
      rw [hheld]
      exact List.mem_cons_of_mem _ (List.mem_singleton_self _)
    have hloops :
        (s.setLoop i ⟨loop.target, loop.panics, newSub, none, goroutine⟩).held ⊆ s.held := by
      refine held_setLoop_subset [] hloop (List.Subset.trans FetchLoop.held_subset ?_)
      rw [List.nil_append, hheld]
      exact List.subset_cons_self _ _
    refine ⟨?_, rfl, rfl, htarget _ rfl⟩
    intro other hother
    rcases List.mem_append.mp hother with hother | hother
    · rcases List.mem_append.mp hother with hother | hother
      · exact List.mem_append_left _ hother
      · rw [List.mem_singleton.mp hother]
        exact hnewSub
    · exact hloops (List.mem_append_right _ hother)
  · cases h
  · cases h
  · obtain rfl := Option.some.inj h
    refine ⟨held_setLoop_subset [] hloop ?_, rfl, rfl, htarget _ rfl⟩
    rw [List.nil_append, hheld]
    exact FetchLoop.held_subset

/-- One more subscription, made for a subject that is not an inbox, has its own inbox. -/
theorem Named.made (h : s.Named inbox) {target : String} (htarget : ∀ k, target ≠ inbox k)
    (hheld : s'.held ⊆ s.newSubscription inbox target :: s.held) (hclosed : s'.closed = s.closed)
    (hstatus : ∀ t, s'.status t = .stopped → s.status t = .stopped)
    (hloops : ∀ loop' ∈ s'.loops, loop'.target = target ∨ loop' ∈ s.loops) :
    s'.Named inbox where
  subject_eq sub hsub := by
    rcases List.mem_cons.mp (hheld hsub) with rfl | hsub
    · rfl
    · exact h.subject_eq sub hsub
  target_ne sub hsub := by
    rcases List.mem_cons.mp (hheld hsub) with rfl | hsub
    · exact htarget
    · exact h.target_ne sub hsub
  loop_ne loop' hloop' := by
    rcases hloops loop' hloop' with heq | hmem
    · rw [heq]
      exact htarget
    · exact h.loop_ne loop' hmem
  stopped t ht := by
    rw [hclosed]
    exact h.stopped t (hstatus t ht)

/-- A new subscription is recorded and held by its goroutine. -/
theorem Named.startSubscription (h : s.Named inbox) {target : String}
    (htarget : ∀ k, target ≠ inbox k) (handler : Option (Msg → Bool)) (ok : Bool) :
    (s.startSubscription inbox target handler ok).Named inbox := by
  cases handler with
  | none => exact h
  | some panics =>
    unfold PullConnection.startSubscription
    dsimp only
    split
    · exact h
    · refine h.made htarget ?_ rfl ?_ ?_
      · intro sub hsub
        simp only [held, List.flatMap_append, List.mem_append, List.flatMap_singleton,
          FetchLoop.held, FetchGoroutine.start, List.mem_singleton, Option.toList_none] at hsub
        simp only [held, List.mem_cons, List.mem_append]
        grind
      · intro t ht
        dsimp only at ht
        by_cases heq : t = target
        · rw [heq, update_self] at ht
          cases ht
        · rwa [update_of_ne heq] at ht
      · intro loop' hloop'
        rcases List.mem_append.mp hloop' with hmem | hmem
        · exact .inr hmem
        · rw [List.mem_singleton.mp hmem]
          exact .inl rfl

/-- A self-heal makes a subscription for the subject of its goroutine. -/
theorem Named.pullSubscribe (h : s.Named inbox) (hloop : s.loops[i]? = some loop)
    (hmade : s.pullSubscribe inbox i loop = some s') : s'.Named inbox := by
  obtain ⟨⟨hposition, hnone⟩, hsome⟩ := Option.ite_none_right_eq_some.mp hmade
  obtain rfl := Option.some.inj hsome
  have hrunning : loop.held = [loop.sub] := by
    rw [FetchLoop.held_of_running (by rw [hposition]; nofun), hnone]
    rfl
  refine h.made (h.loop_ne loop (List.mem_of_getElem? hloop)) ?_ rfl (fun _ ht => ht) ?_
  · refine held_setLoop_subset [_] hloop (List.Subset.trans FetchLoop.held_subset ?_)
    rw [hrunning]
    exact List.Perm.subset (List.Perm.swap _ _ _)
  · intro loop' hloop'
    rcases List.mem_or_eq_of_mem_set hloop' with hmem | rfl
    · exact .inr hmem
    · exact .inl rfl

/-- A stop without an error unsubscribes a subscription by its inbox. -/
theorem Named.stopSubscription (h : s.Named inbox) (target : String) (fault : Option String) :
    (s.stopSubscription target fault).2.Named inbox := by
  unfold PullConnection.stopSubscription
  split
  · exact h
  · rename_i sub hfind
    have hsub : sub ∈ s.held := List.mem_append_left _ (List.mem_of_find?_eq_some hfind)
    have hsubject : sub.subject = target := by simpa using List.find?_some hfind
    unfold unsubscribe
    split
    · exact h
    · rename_i closed hunsubscribed
      obtain ⟨hlive, rfl⟩ : sub.id ∉ s.closed ∧ sub.id :: s.closed = closed := by
        cases fault <;> grind
      have hheld : ∀ other ∈ held { s with
          subject := s.subject.eraseP fun sub => sub.subject = target
          closed := sub.id :: s.closed
          status := update s.status target .stopped }, other ∈ s.held := by
        intro other hother
        rcases List.mem_append.mp hother with hother | hother
        · exact List.mem_append_left _ (List.mem_of_mem_eraseP hother)
        · exact List.mem_append_right _ hother
      refine ⟨fun other hother => h.subject_eq other (hheld other hother),
        fun other hother => h.target_ne other (hheld other hother), h.loop_ne, fun t ht => ?_⟩
      dsimp only at ht
      by_cases heq : t = target
      · exact ⟨sub.id, List.mem_cons_self ..,
          heq.trans (hsubject.symm.trans (h.subject_eq sub hsub))⟩
      · obtain ⟨k, hk, hname⟩ := h.stopped t (by rwa [update_of_ne heq] at ht)
        exact ⟨k, List.mem_cons_of_mem _ hk, hname⟩

/-- Every step keeps the names apart. -/
theorem Named.step (h : s.Named inbox) (hfresh : Fresh inbox l)
    (hstep : s.step inbox l = some s') : s'.Named inbox := by
  cases l with
  | startSubscription target handler ok =>
    obtain rfl := Option.some.inj hstep
    exact h.startSubscription hfresh handler ok
  | act i e =>
    obtain ⟨loop, hloop, hact⟩ := Option.bind_eq_some_iff.mp hstep
    exact h.kept (kept_of_act hloop hact)
  | pullSubscribe i =>
    obtain ⟨loop, hloop, hmade⟩ := Option.bind_eq_some_iff.mp hstep
    exact h.pullSubscribe hloop hmade
  | stopSubscription target fault =>
    obtain rfl := Option.some.inj hstep
    exact h.stopSubscription target fault
  | cancel =>
    obtain rfl := Option.some.inj hstep
    refine h.kept ⟨?_, rfl, rfl, ?_⟩
    · simp only [held, List.flatMap_map]
      exact List.Subset.refl _
    · intro loop' hloop'
      obtain ⟨loop, hloop, rfl⟩ := List.mem_map.mp hloop'
      exact ⟨loop, hloop, rfl⟩

/-- A subscription for a stopped subject is the one that was stopped. -/
theorem Named.isStopped (h : s.Named inbox) (hinbox : Function.Injective inbox) : s.Stopped := by
  rintro sub hsub (hstopped | hstopped)
  · obtain ⟨k, -, hname⟩ := h.stopped _ hstopped
    exact absurd hname (h.target_ne sub hsub k)
  · obtain ⟨k, hk, hname⟩ := h.stopped _ hstopped
    rw [h.subject_eq sub hsub] at hname
    rwa [hinbox hname]

/-- Only an inbox is found by a stop. -/
theorem Named.stopSubscription_eq (h : s.Named inbox) {target : String}
    (htarget : ∀ k, target ≠ inbox k) (fault : Option String) :
    s.stopSubscription target fault = (some "subject not found", s) := by
  have hnone : s.subject.find? (fun sub => sub.subject = target) = none := by
    rw [List.find?_eq_none]
    intro sub hsub hsubject
    have hname := h.subject_eq sub (List.mem_append_left _ hsub)
    exact htarget sub.id ((of_decide_eq_true hsubject).symm.trans hname)
  rw [PullConnection.stopSubscription, hnone]

/-- In every run in which no inbox is started as a subject, no live subscription for a stopped
subject is held: with the subject that was started, `StopSubscription` returns an error and leaves
all as it is. -/
theorem stopped_in_every_run {inbox : Nat → String} (hinbox : Function.Injective inbox)
    {ls : List PullLabel} {s : PullConnection} (hfresh : ∀ l ∈ ls, Fresh inbox l)
    (hrun : (connections inbox).run start ls = some s) :
    s.Stopped ∧ ∀ target fault, (∀ k, target ≠ inbox k) →
      s.stopSubscription target fault = (some "subject not found", s) := by
  have hstart : start.Named inbox := ⟨nofun, nofun, nofun, nofun⟩
  have hnamed : s.Named inbox := (connections inbox).run_guarded
    (fun _ _ _ h hfresh hstep => h.step hfresh hstep) hstart
    ((connections inbox).guarded_of_forall fun l hl _ => hfresh l hl) hrun
  exact ⟨hnamed.isStopped hinbox, fun _ fault htarget => hnamed.stopSubscription_eq htarget fault⟩

/-- Inboxes of different lengths. -/
def inboxes (k : Nat) : String := String.ofList ('_' :: List.replicate k 'x')

/-- They are different. -/
theorem inboxes_injective : Function.Injective inboxes := by
  intro k k' h
  have hnames := List.tail_eq_of_cons_eq (String.ofList_injective h)
  simpa using congrArg List.length hnames

/-- A subject is started and healed once, and stopped by its name and then by its first inbox. -/
def healAndStop : List PullLabel :=
  [.startSubscription "orders" (some fun _ => false) true, .act 0 .select,
    .act 0 .fetchNoResponders, .pullSubscribe 0, .act 0 (.selfHeal true),
    .stopSubscription "orders" none, .stopSubscription (inboxes 0) none]

/-- The stop by the name of the subject has no effect. The one by the inbox unsubscribes that
subscription, and the goroutine goes on with the other. -/
theorem stopped_after_healAndStop :
    ∃ s, (connections inboxes).run start healAndStop = some s ∧ s.closed = [0] ∧
      s.subject = [⟨1, "orders", inboxes 1⟩] ∧ s.status "orders" = .started ∧
      s.status (inboxes 0) = .stopped ∧ s.Stopped ∧
      s.stopSubscription "orders" none = (some "subject not found", s) := by
  have hother : ∀ k, "orders" ≠ inboxes k := by
    intro k h
    have hchars : "orders".toList = '_' :: List.replicate k 'x' :=
      (congrArg String.toList h).trans String.toList_ofList
    have hhead : "orders".toList.head? = some '_' := congrArg List.head? hchars
    revert hhead
    decide
  have hfresh : ∀ l ∈ healAndStop, Fresh inboxes l := by
    simpa [healAndStop, Fresh] using hother
  obtain ⟨s, hrun, hclosed, hsubject, hstarted, hstopped⟩ :
      ∃ s, (connections inboxes).run start healAndStop = some s ∧ s.closed = [0] ∧
        s.subject = [⟨1, "orders", inboxes 1⟩] ∧ s.status "orders" = .started ∧
        s.status (inboxes 0) = .stopped := ⟨_, rfl, rfl, rfl, rfl, rfl⟩
  have hall := stopped_in_every_run inboxes_injective hfresh hrun
  exact ⟨s, hrun, hclosed, hsubject, hstarted, hstopped, hall.1, hall.2 "orders" none hother⟩

end PullConnection

end Stardust.Nats
