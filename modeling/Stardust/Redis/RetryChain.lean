import Stardust.Redis.RetryView

/-!
# The chain of retries

A payload that is put waits, expires, is announced, locked and handled, and then waits again until
the handler does not want it any more or its attempts are used up.
-/

namespace Stardust.Redis

open Stardust.Core Function

namespace Listening

variable {n : Notification} {db : Nat} {value : String} {s s' : Listening} {l : ListeningLabel}

/-- Nothing is left of a chain for the value but maybe its lock. -/
structure Over (n : Notification) (db : Nat) (value : String) (s : Listening) : Prop where
  own : ∀ k : Nat, k < n.policies.length → s.base.store (n.waitKey ⟨k, value⟩) = none
  entries : ∀ key, Announces n db value key → s.base.store key = none
  events : ∀ event, ¬Pending n db value s event
  phase : busyPhase value s.phase = none

/-- A call that is to be the last: the handler answers false, or all policies are used up. -/
def Final (n : Notification) (k : Nat) (call : Call) : Prop :=
  call.putNext = false ∨ k + 1 = n.policies.length

/-- An event is the expiry of the entry with a count, after the time of the policy for it. -/
def Follows (n : Notification) (value : String) (expiries : List Expiry) (k event : Nat) : Prop :=
  ∃ expiry, expiries[event]? = some expiry ∧ expiry.key = n.waitKey ⟨k, value⟩ ∧
    n.policies[k]? = some expiry.ttl

/-- The chain for a value as far as it has got. -/
structure ChainState (n : Notification) (db : Nat) (value : String) (s : Listening) : Prop where
  atMost : (callsFor value s).length ≤ n.policies.length
  /-- A call sees its number, and follows an expiry after the time of its policy. -/
  kth : ∀ (k : Nat) call, (callsFor value s)[k]? = some call →
    call.payload.count = k + 1 ∧ Follows n value s.expiries k call.event
  /-- Nothing is called after a final call. -/
  final : ∀ k call, (callsFor value s)[k]? = some call → Final n k call →
    (callsFor value s).length = k + 1
  /-- The chain is over when the subscriber is done with a final call. -/
  isOver : s.Over n db value ↔ busyPhase value s.phase = none ∧
    ∃ k call, (callsFor value s)[k]? = some call ∧ Final n k call
  unlocked : s.Over n db value → s.base.store (n.lockKey value) = none

/-- No entry and no event is left. -/
structure Clear (n : Notification) (db : Nat) (value : String) (v : View) : Prop where
  entries : ∀ key, Announces n db value key → v.entry key = none
  pending : ∀ event, ¬v.pending event

/-- The calls see their numbers and follow the expiries of their policies. -/
def Numbered (n : Notification) (value : String) (expiries : List Expiry) (calls : List Call) :
    Prop :=
  ∀ (k : Nat) call, calls[k]? = some call →
    call.payload.count = k + 1 ∧ Follows n value expiries k call.event

/-- All calls so far were answered with true, and policies are left. -/
structure Going (n : Notification) (value : String) (expiries : List Expiry) (k : Nat)
    (calls : List Call) : Prop where
  length : calls.length = k
  left : k < n.policies.length
  numbered : Numbered n value expiries calls
  wanted : ∀ call ∈ calls, call.putNext = true

/-- The lock is held from the first call on. -/
def lockAt (owner : String) (k : Nat) : Option Item :=
  if k = 0 then none else some ⟨owner, 0⟩

/-- The subscriber is on its way with an event, after a number of calls. -/
inductive Work (value owner : String) (k : Nat) (calls : List Call) (v : View) (event : Nat) :
    SubscriberPhase → Prop
  | locking (hlock : v.lock = lockAt owner k) (hcalls : v.calls = calls) :
    Work value owner k calls v event (.locking event ⟨k + 1, value⟩)
  | checking (hlock : v.lock = some ⟨owner, 0⟩) (hcalls : v.calls = calls) :
    Work value owner k calls v event (.checking event ⟨k + 1, value⟩)
  | handling (hlock : v.lock = some ⟨owner, 0⟩) (hcalls : v.calls = calls) :
    Work value owner k calls v event (.handling event ⟨k + 1, value⟩)
  | answered {putNext : Bool} (hlock : v.lock = some ⟨owner, 0⟩)
    (hcalls : v.calls = calls ++ [⟨event, ⟨k + 1, value⟩, putNext⟩]) :
    Work value owner k calls v event (.answered event ⟨k + 1, value⟩ putNext)

/-- Where a chain is after a number of calls that were answered with true. -/
inductive Stage (n : Notification) (db : Nat) (value owner : String) (expiries : List Expiry)
    (k : Nat) (calls : List Call) (v : View) : Prop
  | waiting {ttl : Int} (hphase : v.phase = none) (hcalls : v.calls = calls)
    (hlock : v.lock = lockAt owner k) (hpending : ∀ event, ¬v.pending event)
    (hpolicy : n.policies[k]? = some ttl)
    (hentries : ∀ key, Announces n db value key →
      v.entry key = if key = n.waitKey ⟨k, value⟩ then some ⟨"\x01", ttl⟩ else none)
  | announced {event : Nat} (hphase : v.phase = none) (hcalls : v.calls = calls)
    (hlock : v.lock = lockAt owner k) (hpending : ∀ e, v.pending e ↔ e = event)
    (hentries : ∀ key, Announces n db value key → v.entry key = none)
    (hfollows : Follows n value expiries k event)
  | working {event : Nat} {phase : SubscriberPhase} (hphase : v.phase = some phase)
    (hclear : Clear n db value v) (hfollows : Follows n value expiries k event)
    (hwork : Work value owner k calls v event phase)
  | ended {event : Nat} {putNext : Bool} (hphase : v.phase = none)
    (hclear : Clear n db value v) (hfollows : Follows n value expiries k event)
    (hlock : v.lock = none) (hcalls : v.calls = calls ++ [⟨event, ⟨k + 1, value⟩, putNext⟩])
    (hfinal : Final n k ⟨event, ⟨k + 1, value⟩, putNext⟩)

section Stages

variable {v v' : View} {owner : String} {expiries expiries' : List Expiry} {k event : Nat}
  {calls : List Call}

private theorem Follows.mono (h : Follows n value expiries k event)
    (hgrow : ∀ (e : Nat) x, expiries[e]? = some x → expiries'[e]? = some x) :
    Follows n value expiries' k event := by
  obtain ⟨expiry, hexpiry, hrest⟩ := h
  exact ⟨expiry, hgrow event expiry hexpiry, hrest⟩

private theorem Going.mono (h : Going n value expiries k calls)
    (hgrow : ∀ (e : Nat) x, expiries[e]? = some x → expiries'[e]? = some x) :
    Going n value expiries' k calls :=
  ⟨h.length, h.left, fun j call hcall =>
    ⟨(h.numbered j call hcall).1, (h.numbered j call hcall).2.mono hgrow⟩, h.wanted⟩

/-- One more call is numbered too. -/
theorem Going.numbered_concat (h : Going n value expiries k calls)
    (hfollows : Follows n value expiries k event) (putNext : Bool) :
    Numbered n value expiries (calls ++ [⟨event, ⟨k + 1, value⟩, putNext⟩]) := by
  intro j call hcall
  rcases Nat.lt_or_ge j calls.length with hlt | hge
  · rw [List.getElem?_append_left hlt] at hcall
    exact h.numbered j call hcall
  · rw [List.getElem?_append_right hge] at hcall
    rw [List.getElem?_singleton] at hcall
    split_ifs at hcall with hzero
    obtain rfl : j = k := by
      rw [← h.length]
      exact Nat.le_antisymm (Nat.sub_eq_zero_iff_le.mp hzero) hge
    cases hcall
    exact ⟨rfl, hfollows⟩

/-- The chain goes on after a call that was not final. -/
theorem Going.concat (h : Going n value expiries k calls)
    (hfollows : Follows n value expiries k event) {putNext : Bool}
    (hnot : ¬Final n k ⟨event, ⟨k + 1, value⟩, putNext⟩) :
    Going n value expiries (k + 1) (calls ++ [⟨event, ⟨k + 1, value⟩, putNext⟩]) := by
  obtain ⟨htrue, hlast⟩ := not_or.mp hnot
  refine ⟨?_, Nat.lt_of_le_of_ne h.left hlast, h.numbered_concat hfollows putNext, ?_⟩
  · rw [List.length_append, h.length]
    rfl
  · exact List.forall_mem_append.mpr
      ⟨h.wanted, List.forall_mem_singleton.mpr (eq_true_of_ne_false htrue)⟩

/-- None of the calls so far was final. -/
theorem Going.not_final (h : Going n value expiries k calls) {j : Nat} {call : Call}
    (hcall : calls[j]? = some call) : ¬Final n j call := by
  rintro (hfalse | hlast)
  · rw [h.wanted call (List.mem_of_getElem? hcall)] at hfalse
    cases hfalse
  · obtain ⟨hlt, -⟩ := List.getElem?_eq_some_iff.mp hcall
    have hlength := h.length
    have hleft := h.left
    omega

private theorem Stage.mono (h : Stage n db value owner expiries k calls v)
    (hgrow : ∀ (e : Nat) x, expiries[e]? = some x → expiries'[e]? = some x) :
    Stage n db value owner expiries' k calls v := by
  cases h with
  | waiting hphase hcalls hlock hpending hpolicy hentries =>
    exact .waiting hphase hcalls hlock hpending hpolicy hentries
  | announced hphase hcalls hlock hpending hentries hfollows =>
    exact .announced hphase hcalls hlock hpending hentries (hfollows.mono hgrow)
  | working hphase hclear hfollows hwork =>
    exact .working hphase hclear (hfollows.mono hgrow) hwork
  | ended hphase hclear hfollows hlock hcalls hfinal =>
    exact .ended hphase hclear (hfollows.mono hgrow) hlock hcalls hfinal

/-- The lock of a chain does not expire. -/
theorem Stage.lock_lasts (h : Stage n db value owner expiries k calls v) :
    ∀ item ∈ v.lock, item.ttl ≤ 0 := by
  have hlock : v.lock = none ∨ v.lock = some ⟨owner, 0⟩ := by
    have hat : lockAt owner k = none ∨ lockAt owner k = some ⟨owner, 0⟩ := by
      unfold lockAt
      exact (ite_eq_or_eq _ _ _)
    cases h with
    | waiting hphase hcalls hlock => exact hlock ▸ hat
    | announced hphase hcalls hlock => exact hlock ▸ hat
    | working hphase hclear hfollows hwork =>
      cases hwork with
      | locking hlock => exact hlock ▸ hat
      | checking hlock | handling hlock | answered hlock => exact .inr hlock
    | ended hphase hclear hfollows hlock => exact .inl hlock
  intro item hitem
  rcases hlock with hnone | hsome
  · rw [hnone] at hitem
    cases hitem
  · rw [hsome] at hitem
    cases hitem
    exact le_rfl

/-- What a subscriber does that is busy with the value. -/
theorem Stage.work_of_phase (h : Stage n db value owner expiries k calls v)
    {phase : SubscriberPhase} (hphase : v.phase = some phase) :
    Clear n db value v ∧ ∃ event, Follows n value expiries k event ∧
      Work value owner k calls v event phase := by
  cases h with
  | waiting hnone => cases hphase.symm.trans hnone
  | announced hnone => cases hphase.symm.trans hnone
  | working hsome hclear hfollows hwork =>
    cases hphase.symm.trans hsome
    exact ⟨hclear, _, hfollows, hwork⟩
  | ended hnone => cases hphase.symm.trans hnone

/-- The payload waits again unless the call was final. -/
theorem again_eq_false_iff_final (hleft : k < n.policies.length) {putNext : Bool} :
    Subscribers.again n ⟨k + 1, value⟩ putNext = false ↔
      Final n k ⟨event, ⟨k + 1, value⟩, putNext⟩ := by
  simp only [Subscribers.again, Final, Bool.and_eq_false_iff, decide_eq_false_iff_not]
  refine or_congr_right ?_
  omega

/-- A call that is repeated is not final. -/
theorem not_final_of_again (hleft : k < n.policies.length) {putNext : Bool}
    (hagain : Subscribers.again n ⟨k + 1, value⟩ putNext = true) :
    ¬Final n k ⟨event, ⟨k + 1, value⟩, putNext⟩ := by
  rw [← again_eq_false_iff_final hleft, hagain]
  exact Bool.noConfusion

/-- The entry of a chain expires. -/
theorem Stage.expire (hstage : Stage n db value owner expiries k calls v) {key : String}
    {item : Item} {putBy : Option String} (hkey : Announces n db value key)
    (hentry : v.entry key = some item) (hexpiry : expiries[event]? = some ⟨key, item.ttl, putBy⟩) :
    Stage n db value owner expiries k calls
      { v with
        entry := update v.entry key none
        pending := fun e => v.pending e ∨ e = event } := by
  cases hstage with
  | waiting hphase hcalls hlock hpending hpolicy hentries =>
    rw [hentries key hkey] at hentry
    split_ifs at hentry with heq
    cases hentry
    refine .announced hphase hcalls hlock (fun e => or_iff_right (hpending e))
      (fun key' hkey' => ?_) ⟨_, hexpiry, heq, hpolicy⟩
    refine (update_apply ..).trans ?_
    rw [hentries key' hkey', heq]
    split_ifs
    · rfl
    · rfl
  | announced hphase hcalls hlock hpending hentries hfollows =>
    rw [hentries key hkey] at hentry
    cases hentry
  | working hphase hclear hfollows hwork =>
    rw [hclear.entries key hkey] at hentry
    cases hentry
  | ended hphase hclear hfollows hlock hcalls hfinal =>
    rw [hclear.entries key hkey] at hentry
    cases hentry

/-- The event of a chain is received. -/
theorem Stage.receive (hstage : Stage n db value owner expiries k calls v)
    (hdecode : decodePayload (keyspaceChannel db (n.waitKey ⟨k, value⟩)) = .ok ⟨k, value⟩)
    {expiry : Expiry} {p : Payload} (hphase : v.phase = none) (hpending : v.pending event)
    (hexpiry : expiries[event]? = some expiry)
    (hp : decodePayload (keyspaceChannel db expiry.key) = .ok p) :
    Stage n db value owner expiries k calls
      { v with
        pending := fun e => v.pending e ∧ e ≠ event
        phase := some (.locking event ⟨p.count + 1, p.value⟩) } := by
  cases hstage with
  | waiting _ hcalls hlock hnone => exact absurd hpending (hnone event)
  | announced _ hcalls hlock honly hentries hfollows =>
    obtain rfl := (honly event).mp hpending
    obtain ⟨expiry', hexpiry', hkey, hpolicy⟩ := hfollows
    cases hexpiry.symm.trans hexpiry'
    rw [hkey, hdecode] at hp
    cases hp
    exact .working rfl ⟨hentries, fun e he => he.2 ((honly e).mp he.1)⟩
      ⟨expiry, hexpiry, hkey, hpolicy⟩ (.locking hlock hcalls)
  | working hsome => cases hphase.symm.trans hsome
  | ended _ hclear => exact absurd hpending (hclear.pending event)

/-- Every effect leads to a stage of the chain. -/
theorem Stage.step (hgoing : Going n value s'.expiries k calls)
    (hstage : Stage n db value s.subscriber.owner s'.expiries k calls v)
    (hgrow : ∀ (e : Nat) x, s.expiries[e]? = some x → s'.expiries[e]? = some x)
    (hdecode : decodePayload (keyspaceChannel db (n.waitKey ⟨k, value⟩)) = .ok ⟨k, value⟩)
    (heffect : Effect n db value s s' v v') :
    ∃ k calls, Going n value s'.expiries k calls ∧
      Stage n db value s.subscriber.owner s'.expiries k calls v' := by
  cases heffect with
  | same => exact ⟨k, calls, hgoing, hstage⟩
  | expired hkey hentry hexpiry => exact ⟨k, calls, hgoing, hstage.expire hkey hentry hexpiry⟩
  | received hphase hpending hexpiry hp =>
    exact ⟨k, calls, hgoing, hstage.receive hdecode hphase hpending (hgrow _ _ hexpiry) hp⟩
  | acquired hphase hlock =>
    obtain ⟨hclear, event, hfollows, hwork⟩ := hstage.work_of_phase hphase
    cases hwork with
    | locking _ hcalls =>
      exact ⟨k, calls, hgoing, .working rfl ⟨hclear.entries, hclear.pending⟩ hfollows
        (.handling rfl hcalls)⟩
  | busy hphase hheld =>
    obtain ⟨hclear, event, hfollows, hwork⟩ := hstage.work_of_phase hphase
    cases hwork with
    | locking hlock hcalls =>
      rw [lockAt] at hlock
      split_ifs at hlock with hzero
      · exact absurd hlock hheld
      · exact ⟨k, calls, hgoing, .working rfl ⟨hclear.entries, hclear.pending⟩ hfollows
          (.checking hlock hcalls)⟩
  | kept hphase =>
    obtain ⟨hclear, event, hfollows, hwork⟩ := hstage.work_of_phase hphase
    cases hwork with
    | checking hlock hcalls =>
      exact ⟨k, calls, hgoing, .working rfl ⟨hclear.entries, hclear.pending⟩ hfollows
        (.handling hlock hcalls)⟩
  | turnedDown hphase hother =>
    obtain ⟨hclear, event, hfollows, hwork⟩ := hstage.work_of_phase hphase
    cases hwork with
    | checking hlock hcalls =>
      rw [hlock] at hother
      exact absurd rfl hother
  | handled hphase =>
    obtain ⟨hclear, event, hfollows, hwork⟩ := hstage.work_of_phase hphase
    cases hwork with
    | handling hlock hcalls =>
      refine ⟨k, calls, hgoing, .working rfl ⟨hclear.entries, hclear.pending⟩ hfollows
        (.answered hlock ?_)⟩
      rw [hcalls]
  | next hphase hagain hpolicy =>
    obtain ⟨hclear, event, hfollows, hwork⟩ := hstage.work_of_phase hphase
    cases hwork with
    | answered hlock hcalls =>
      refine ⟨k + 1, _, hgoing.concat hfollows (not_final_of_again hgoing.left hagain),
        .waiting rfl hcalls hlock hclear.pending hpolicy.2 fun key hkey => ?_⟩
      refine (update_apply ..).trans ?_
      rw [hclear.entries key hkey]
      rfl
  | crashed hphase hagain hnone =>
    obtain ⟨hclear, event, hfollows, hwork⟩ := hstage.work_of_phase hphase
    cases hwork with
    | answered hlock hcalls =>
      have hleft := (hgoing.concat hfollows (not_final_of_again hgoing.left hagain)).left
      exact absurd ⟨Int.natCast_nonneg _, List.getElem?_eq_getElem hleft⟩ (hnone _)
  | unlocked hphase hagain =>
    obtain ⟨hclear, event, hfollows, hwork⟩ := hstage.work_of_phase hphase
    cases hwork with
    | answered hlock hcalls =>
      exact ⟨k, calls, hgoing, .ended rfl ⟨hclear.entries, hclear.pending⟩ hfollows rfl hcalls
        ((again_eq_false_iff_final hgoing.left).mp hagain)⟩

end Stages

section Chains

variable {v : View} {k event : Nat} {calls : List Call}

/-- Every entry of the value announces it. -/
theorem announces_waitKey
    (hdecode : ∀ k : Nat, k < n.policies.length →
      decodePayload (keyspaceChannel db (n.waitKey ⟨k, value⟩)) = .ok ⟨k, value⟩)
    (hhears : ∀ k : Nat, k < n.policies.length → n.hears db (n.waitKey ⟨k, value⟩) = true)
    (k : Nat) (hk : k < n.policies.length) : Announces n db value (n.waitKey ⟨k, value⟩) :=
  ⟨hhears k hk, ⟨k, value⟩, hdecode k hk, rfl⟩

/-- The chain is over when the view is idle and clear. -/
theorem Sees.over_iff (h : s.Sees n db value v)
    (hown : ∀ k : Nat, k < n.policies.length → Announces n db value (n.waitKey ⟨k, value⟩)) :
    s.Over n db value ↔ v.phase = none ∧ Clear n db value v := by
  constructor
  · intro hover
    refine ⟨h.phase ▸ hover.phase, fun key hkey => ?_, fun e he => ?_⟩
    · rw [← h.entries key hkey, hover.entries key hkey]
    · exact hover.events e ((h.events e).mpr he)
  · rintro ⟨hphase, hclear⟩
    have hentries : ∀ key, Announces n db value key → s.base.store key = none := by
      intro key hkey
      rw [h.entries key hkey, hclear.entries key hkey]
    exact ⟨fun k hk => hentries _ (hown k hk), hentries,
      fun e he => hclear.pending e ((h.events e).mp he), h.phase.trans hphase⟩

/-- A chain that is not over has had no final call. -/
theorem chainState_of_going (h : s.Sees n db value v)
    (hgoing : Going n value s.expiries k calls) (hcalls : v.calls = calls)
    (hnot : ¬s.Over n db value) : s.ChainState n db value := by
  have heq : callsFor value s = calls := h.calls.trans hcalls
  refine ⟨?_, ?_, fun j call hcall hfinal => ?_, iff_of_false hnot ?_, fun hover => ?_⟩
  · rw [heq, hgoing.length]
    exact Nat.le_of_lt hgoing.left
  · rw [heq]
    exact hgoing.numbered
  · rw [heq] at hcall
    exact absurd hfinal (hgoing.not_final hcall)
  · rintro ⟨-, j, call, hcall, hfinal⟩
    rw [heq] at hcall
    exact hgoing.not_final hcall hfinal
  · exact absurd hover hnot

/-- The last call is being answered or has been. -/
theorem chainState_of_last (h : s.Sees n db value v)
    (hown : ∀ k : Nat, k < n.policies.length → Announces n db value (n.waitKey ⟨k, value⟩))
    (hgoing : Going n value s.expiries k calls) (hfollows : Follows n value s.expiries k event)
    {putNext : Bool} (hcalls : v.calls = calls ++ [⟨event, ⟨k + 1, value⟩, putNext⟩])
    (hdone : v.phase = none → Clear n db value v ∧ v.lock = none ∧
      Final n k ⟨event, ⟨k + 1, value⟩, putNext⟩) : s.ChainState n db value := by
  have heq : callsFor value s = calls ++ [⟨event, ⟨k + 1, value⟩, putNext⟩] :=
    h.calls.trans hcalls
  have hlength : (callsFor value s).length = k + 1 := by
    rw [heq, List.length_append, hgoing.length]
    rfl
  have hlast : (callsFor value s)[k]? = some ⟨event, ⟨k + 1, value⟩, putNext⟩ := by
    rw [heq, ← hgoing.length]
    exact List.getElem?_concat_length
  refine ⟨?_, ?_, fun j call hcall hfinal => ?_, ?_, fun hover => ?_⟩
  · rw [hlength]
    exact hgoing.left
  · rw [heq]
    exact hgoing.numbered_concat hfollows putNext
  · rcases Nat.lt_or_ge j k with hlt | hge
    · rw [heq, List.getElem?_append_left (hgoing.length ▸ hlt)] at hcall
      exact absurd hfinal (hgoing.not_final hcall)
    · obtain ⟨hlt, -⟩ := List.getElem?_eq_some_iff.mp hcall
      omega
  · rw [h.over_iff hown, h.phase]
    constructor
    · rintro ⟨hphase, -⟩
      exact ⟨hphase, k, _, hlast, (hdone hphase).2.2⟩
    · rintro ⟨hphase, -⟩
      exact ⟨hphase, (hdone hphase).1⟩
  · rw [h.lock]
    exact (hdone ((h.over_iff hown).mp hover).1).2.1

/-- A stage of the view is a state of the chain. -/
theorem chainState_of_stage (h : s.Sees n db value v)
    (hown : ∀ k : Nat, k < n.policies.length → Announces n db value (n.waitKey ⟨k, value⟩))
    (hgoing : Going n value s.expiries k calls)
    (hstage : Stage n db value s.subscriber.owner s.expiries k calls v) :
    s.ChainState n db value := by
  have hover := h.over_iff hown
  cases hstage with
  | waiting hphase hcalls hlock hpending hpolicy hentries =>
    refine chainState_of_going h hgoing hcalls fun hnothing => ?_
    have hnone := (hover.mp hnothing).2.entries _ (hown k hgoing.left)
    rw [hentries _ (hown k hgoing.left), if_pos rfl] at hnone
    cases hnone
  | announced hphase hcalls hlock hpending hentries hfollows =>
    refine chainState_of_going h hgoing hcalls fun hnothing => ?_
    exact (hover.mp hnothing).2.pending _ ((hpending _).mpr rfl)
  | working hphase hclear hfollows hwork =>
    have hnot : ¬s.Over n db value := fun hnothing => by
      cases hphase.symm.trans (hover.mp hnothing).1
    cases hwork with
    | locking hlock hcalls | checking hlock hcalls | handling hlock hcalls =>
      exact chainState_of_going h hgoing hcalls hnot
    | answered hlock hcalls =>
      refine chainState_of_last h hown hgoing hfollows hcalls fun hnone => ?_
      cases hphase.symm.trans hnone
  | ended hphase hclear hfollows hlock hcalls hfinal =>
    exact chainState_of_last h hown hgoing hfollows hcalls fun _ => ⟨hclear, hlock, hfinal⟩

/-- A chain is under way. -/
structure InChain (n : Notification) (db : Nat) (value : String) (s : Listening) : Prop where
  recorded : s.Recorded n db
  stage : ∃ v k calls, s.Sees n db value v ∧ Going n value s.expiries k calls ∧
    Stage n db value s.subscriber.owner s.expiries k calls v

/-- Every step stays in the chain. -/
theorem InChain.step (h : s.InChain n db value) (hvalue : Decoded value)
    (hdecode : ∀ k : Nat, k < n.policies.length →
      decodePayload (keyspaceChannel db (n.waitKey ⟨k, value⟩)) = .ok ⟨k, value⟩)
    (hother : Other n db value l) (hstep : s.step l = some s') : s'.InChain n db value := by
  have hmoves := step_moves hstep
  obtain ⟨v, k, calls, hsees, hgoing, hstage⟩ := h.stage
  obtain ⟨v', heffect, hsees'⟩ :=
    effect_of_moves hsees h.recorded hvalue hstage.lock_lasts hother hmoves
  obtain ⟨k', calls', hgoing', hstage'⟩ :=
    Stage.step (hgoing.mono hmoves.expiries_grow) (hstage.mono hmoves.expiries_grow)
      hmoves.expiries_grow (hdecode k hgoing.left) heffect
  rw [← hmoves.frame.2.2] at hstage'
  exact ⟨h.recorded.step hstep, v', k', calls', hsees', hgoing', hstage'⟩

/-- The calls are counted from here. -/
def restarted (s : Listening) : Listening := { s with calls := [] }

/-- A put from outside enters the payload. -/
theorem exists_policy_of_put (hrec : s.Recorded n db) {p : Payload}
    (hput : s.step (.own (.put () p)) = some s') :
    ∃ policy, PolicyOf n p policy ∧ s' = { s with
      base := { s.base with store := entered n p policy s.base.store }
      putBy := update s.putBy (n.waitKey p) (some n.key) } := by
  cases step_moves hput with
  | put hl hpolicy =>
    rcases hl with hl | ⟨hl, hn⟩
    · cases hl
    · cases hl
      obtain rfl := hn.trans hrec.notification
      exact ⟨_, hpolicy, rfl⟩

/-- A restart keeps the record. -/
theorem Recorded.restarted (h : s.Recorded n db) : s.restarted.Recorded n db :=
  ⟨h.notification, h.database, h.events, h.job, h.decoded, h.seen, nofun⟩

/-- A payload is put where nothing is left of other chains. -/
theorem inChain_of_put (hrec : s.Recorded n db) (hvalue : Decoded value)
    (hover : s.Over n db value) (hunlocked : s.base.store (n.lockKey value) = none)
    (hput : s.restarted.step (.own (.put () ⟨0, value⟩)) = some s') : s'.InChain n db value := by
  refine ⟨hrec.restarted.step hput, ?_⟩
  obtain ⟨policy, ⟨-, hpolicy⟩, rfl⟩ := exists_policy_of_put hrec.restarted hput
  have hleft : 0 < n.policies.length := (List.getElem?_eq_some_iff.mp hpolicy).1
  refine ⟨⟨entered n ⟨0, value⟩ policy s.base.store, fun _ => False, none, none, []⟩, 0, [],
    ⟨fun key _ => rfl, fun e => iff_of_false (hover.events e) not_false, hover.phase, ?_, rfl⟩,
    ⟨rfl, hleft, nofun, nofun⟩, .waiting rfl rfl rfl (fun _ => not_false) hpolicy
      fun key hkey => ?_⟩
  · rw [← hunlocked]
    exact update_of_ne (waitKey_ne_lockKey_of_decoded hvalue).symm _ _
  · refine (update_apply ..).trans ?_
    rw [hover.entries key hkey]
    rfl

end Chains

end Listening

end Stardust.Redis
