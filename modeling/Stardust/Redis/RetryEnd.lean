import Stardust.Redis.RetryChain

/-!
# The end of a chain

A chain that is not over has a next step whenever the subscriber is free for it. Each of these steps
takes it nearer to its end, whatever the handler answers.
-/

namespace Stardust.Redis

open Stardust.Core

namespace Listening

variable {n : Notification} {db : Nat} {value : String} {s s' : Listening} {l : ListeningLabel}

/-- The subscriber has nothing else to do. -/
def Free (value : String) (s : Listening) : Prop :=
  s.phase = .idle ∨ busyPhase value s.phase = some s.phase

/-- From here the chain can be brought to its end with any answers of the handler. -/
def CanEnd (n : Notification) (db : Nat) (value : String) (s : Listening) : Prop :=
  s.Free value → (∀ policy ∈ n.policies, 0 < policy) → ∀ answers : Nat → Bool,
    ∃ ls s', (∀ l ∈ ls, Other n db value l) ∧ (listeners n db).run s ls = some s' ∧
      s'.Over n db value ∧ ∃ more, callsFor value s' = callsFor value s ++ more ∧
        ∀ (j : Nat) call, more[j]? = some call →
          call.putNext = answers ((callsFor value s).length + j)

/-- The steps to the next call, or after it. -/
def remaining (waits : Bool) : SubscriberPhase → Nat
  | .answered _ _ _ => 6
  | .idle | .crashed => if waits then 5 else 4
  | .locking _ _ => 3
  | .checking _ _ => 2
  | .handling _ _ => 1

/-- A bound for the steps that are left. -/
def rank (n : Notification) (value : String) (s : Listening) : Nat :=
  7 * (n.policies.length - (callsFor value s).length) +
    remaining (s.base.store (n.waitKey ⟨(callsFor value s).length, value⟩)).isSome s.phase

/-- A step towards the end, with an answer if it calls the handler. -/
structure Advance (n : Notification) (value : String) (answer : Bool) (s s' : Listening) :
    Prop where
  free : s'.Free value
  less : rank n value s' < rank n value s
  calls : ∃ more, callsFor value s' = callsFor value s ++ more ∧
    (more = [] ∨ ∃ call, more = [call] ∧ call.putNext = answer)

section Advances

variable {v : View} {k event : Nat} {calls : List Call} {answer : Bool}

private theorem remaining_idle_le (waits : Bool) : remaining waits .idle ≤ 5 := by
  cases waits
  · exact Nat.le_succ 4
  · exact Nat.le_refl 5

private theorem le_remaining_idle (waits : Bool) : 4 ≤ remaining waits .idle := by
  cases waits
  · exact Nat.le_refl 4
  · exact Nat.le_succ 4

/-- A step that calls no handler. -/
theorem Advance.of_remaining (hcalls : s'.calls = s.calls) (hfree : s'.Free value)
    (hless : remaining (s'.base.store (n.waitKey ⟨(callsFor value s).length, value⟩)).isSome
      s'.phase < remaining (s.base.store (n.waitKey ⟨(callsFor value s).length, value⟩)).isSome
        s.phase) : Advance n value answer s s' := by
  have hsame : callsFor value s' = callsFor value s := by rw [callsFor, hcalls, callsFor]
  refine ⟨hfree, ?_, [], by rw [hsame, List.append_nil], .inl rfl⟩
  rw [rank, rank, hsame]
  exact Nat.add_lt_add_left hless _

/-- A subscriber that is not busy with the value is idle. -/
theorem Free.idle (hfree : s.Free value) (h : s.Sees n db value v) (hnone : v.phase = none) :
    s.phase = .idle := by
  rcases hfree with hidle | hbusy
  · exact hidle
  · cases (h.phase.trans hnone).symm.trans hbusy

/-- A subscriber is in the phase in which it is busy with the value. -/
theorem phase_of_busyPhase {phase : SubscriberPhase} (h : busyPhase value s.phase = some phase) :
    s.phase = phase := by
  unfold busyPhase at h
  split_ifs at h
  exact Option.some.inj h

/-- The subscriber goes on with the value. -/
theorem free_enter {phase : SubscriberPhase} {count : Int}
    (hjob : phase.job = some (event, ⟨count, value⟩)) (base : Subscribers Unit)
    (putBy : String → Option String) (expiries : List Expiry) (calls : List Call) :
    Free value ⟨base.enter () phase, putBy, expiries, calls⟩ := by
  refine .inr ?_
  rw [phase_enter, busyPhase_of_eq hjob rfl]

/-- The entry of a chain can expire. -/
theorem advance_waiting {ttl : Int} (hidle : s.phase = .idle)
    (hentry : s.base.store (n.waitKey ⟨(callsFor value s).length, value⟩) = some ⟨"\x01", ttl⟩)
    (hpositive : 0 < ttl) :
    ∃ l s', Other n db value l ∧ s.step l = some s' ∧ Advance n value answer s s' := by
  refine ⟨.own (.expire (n.waitKey ⟨(callsFor value s).length, value⟩)), _, trivial,
    step_of_moves (.expire hentry hpositive), .of_remaining rfl (.inl hidle) ?_⟩
  rw [hentry]
  simp only [Function.update_self]
  change remaining false s.phase < remaining true s.phase
  rw [hidle]
  exact Nat.lt_succ_self 4

/-- The event of a chain can be received. -/
theorem advance_announced (hrec : s.Recorded n db) (hidle : s.phase = .idle)
    (hpending : Pending n db value s event) :
    ∃ l s', Other n db value l ∧ s.step l = some s' ∧ Advance n value answer s s' := by
  obtain ⟨hnew, expiry, hexpiry, hheard, p, hdecode, hvalue⟩ := hpending
  have hchannel : s.base.events[event]? = some (keyspaceChannel db expiry.key) := by
    rw [hrec.events, List.getElem?_map, hexpiry]
    rfl
  have hhears : ∀ expiry ∈ s.expiries[event]?,
      s.notification.hears s.base.db expiry.key = true := by
    intro expiry' hexpiry'
    cases hexpiry.symm.trans hexpiry'
    rw [hrec.notification, hrec.database]
    exact hheard
  refine ⟨.own (.deliver () event), _, trivial,
    step_of_moves (.receive hidle hnew hchannel hhears hdecode), .of_remaining rfl (.inr ?_) ?_⟩
  · rw [phase_receive, busyPhase_of_eq (p := ⟨p.count + 1, p.value⟩) rfl hvalue]
  · rw [phase_receive, hidle]
    exact le_remaining_idle _

/-- A subscriber that is busy with the value goes on. -/
theorem advance_working (h : s.Sees n db value v) (hrec : s.Recorded n db)
    (hgoing : Going n value s.expiries k calls) {phase : SubscriberPhase}
    (hphase : s.phase = phase) (hwork : Work value s.subscriber.owner k calls v event phase) :
    ∃ l s', Other n db value l ∧ s.step l = some s' ∧ Advance n value answer s s' := by
  have hn := hrec.notification
  have hlock : s.base.store (s.notification.lockKey value) = v.lock := by rw [hn, h.lock]
  cases hwork with
  | locking _ _ =>
    by_cases hfree : v.lock = none
    · refine ⟨.own (.setNX () false), _, trivial,
        step_of_moves (.acquire hphase (hlock.trans hfree)),
        .of_remaining rfl (free_enter rfl ..) ?_⟩
      rw [phase_enter, hphase]
      exact Nat.lt_of_lt_of_le (Nat.lt_succ_self 1) (Nat.le_succ 2)
    · refine ⟨.own (.setNX () false), _, trivial,
        step_of_moves (.busy hphase (hlock ▸ hfree)), .of_remaining rfl (free_enter rfl ..) ?_⟩
      rw [phase_enter, hphase]
      exact Nat.lt_succ_self 2
  | checking hown _ =>
    refine ⟨.own (.get () false), _, trivial,
      step_of_moves (.keep hphase (by rw [hlock, hown]; rfl)),
      .of_remaining rfl (free_enter rfl ..) ?_⟩
    rw [phase_enter, hphase]
    exact Nat.lt_succ_self 1
  | handling _ hcalls =>
    have hcalled : callsFor value ⟨{ s.base with
        handled := (event, ()) :: s.base.handled }.enter () (.answered event ⟨k + 1, value⟩ answer),
        s.putBy, s.expiries, s.calls ++ [⟨event, ⟨k + 1, value⟩, answer⟩]⟩ =
        callsFor value s ++ [⟨event, ⟨k + 1, value⟩, answer⟩] := by
      simp [callsFor]
    have hlength : (callsFor value s).length = k := by rw [h.calls, hcalls, hgoing.length]
    refine ⟨.own (.handle () answer), _, trivial, step_of_moves (.handle hphase),
      free_enter rfl .., ?_, _, hcalled, .inr ⟨_, rfl, rfl⟩⟩
    have hleft := hgoing.left
    simp only [rank, hcalled, phase_enter, hphase, remaining, List.length_append, hlength,
      List.length_singleton]
    omega
  | @answered putNext _ _ =>
    cases hagain : Subscribers.again s.notification ⟨k + 1, value⟩ putNext with
    | false =>
      refine ⟨.own (.unlock () false), _, trivial, step_of_moves (.unlock hphase hagain),
        .of_remaining rfl (.inl (phase_enter ..)) ?_⟩
      rw [phase_enter, hphase]
      exact Nat.lt_succ_of_le (remaining_idle_le _)
    | true =>
      rw [hn] at hagain
      have hfinal : ¬Final n k ⟨event, ⟨k + 1, value⟩, putNext⟩ :=
        not_final_of_again hgoing.left hagain
      have hleft : k + 1 < n.policies.length :=
        Nat.lt_of_le_of_ne hgoing.left (not_or.mp hfinal).2
      have hpolicy : PolicyOf s.notification ⟨k + 1, value⟩ n.policies[k + 1] := by
        rw [hn]
        exact ⟨Int.natCast_nonneg _, List.getElem?_eq_getElem hleft⟩
      rw [← hn] at hagain
      refine ⟨.own (.putNext () false), _, trivial, step_of_moves (.next hphase hagain hpolicy),
        .of_remaining rfl (.inl (phase_enter ..)) ?_⟩
      rw [phase_enter, hphase]
      exact Nat.lt_succ_of_le (remaining_idle_le _)

/-- A chain that is not over has a next step. -/
theorem InChain.advance (h : s.InChain n db value)
    (hown : ∀ k : Nat, k < n.policies.length → Announces n db value (n.waitKey ⟨k, value⟩))
    (hpositive : ∀ policy ∈ n.policies, 0 < policy) (hfree : s.Free value)
    (hnot : ¬s.Over n db value) (answer : Bool) :
    ∃ l s', Other n db value l ∧ s.step l = some s' ∧ Advance n value answer s s' := by
  obtain ⟨v, k, calls, hsees, hgoing, hstage⟩ := h.stage
  cases hstage with
  | @waiting ttl hphase hcalls hlock hpending hpolicy hentries =>
    have hlength : (callsFor value s).length = k := by rw [hsees.calls, hcalls, hgoing.length]
    have hentry : s.base.store (n.waitKey ⟨(callsFor value s).length, value⟩) =
        some ⟨"\x01", ttl⟩ := by
      have hkey := hown k hgoing.left
      rw [hlength, hsees.entries _ hkey, hentries _ hkey, if_pos rfl]
    exact advance_waiting (hfree.idle hsees hphase) hentry
      (hpositive ttl (List.mem_of_getElem? hpolicy))
  | announced hphase hcalls hlock hpending hentries hfollows =>
    exact advance_announced h.recorded (hfree.idle hsees hphase)
      ((hsees.events _).mpr ((hpending _).mpr rfl))
  | working hphase hclear hfollows hwork =>
    exact advance_working hsees h.recorded hgoing
      (phase_of_busyPhase (hsees.phase.trans hphase)) hwork
  | ended hphase hclear hfollows hlock hcalls hfinal =>
    exact absurd ((hsees.over_iff hown).mpr ⟨hphase, hclear⟩) hnot

/-- By induction on the bound for the steps that are left. -/
theorem InChain.canEnd (hvalue : Decoded value)
    (hdecode : ∀ k : Nat, k < n.policies.length →
      decodePayload (keyspaceChannel db (n.waitKey ⟨k, value⟩)) = .ok ⟨k, value⟩)
    (hhears : ∀ k : Nat, k < n.policies.length → n.hears db (n.waitKey ⟨k, value⟩) = true)
    (h : s.InChain n db value) : s.CanEnd n db value := by
  intro hfree hpositive answers
  induction hrank : rank n value s using Nat.strongRecOn generalizing s with
  | ind r ih =>
    by_cases hover : s.Over n db value
    · exact ⟨[], s, nofun, rfl, hover, [], (List.append_nil _).symm, nofun⟩
    · obtain ⟨l, s₁, hother, hstep, hadvance⟩ := h.advance (announces_waitKey hdecode hhears)
        hpositive hfree hover (answers (callsFor value s).length)
      obtain ⟨ls, s', hothers, hrun, hover', more', hmore', hanswers⟩ :=
        ih (rank n value s₁) (hrank ▸ hadvance.less) (h.step hvalue hdecode hother hstep)
          hadvance.free rfl
      obtain ⟨more, hmore, hlast⟩ := hadvance.calls
      refine ⟨l :: ls, s', List.forall_mem_cons.mpr ⟨hother, hothers⟩,
        (listeners n db).run_cons_iff.mpr ⟨s₁, hstep, hrun⟩, hover', more ++ more', ?_, ?_⟩
      · rw [hmore', hmore, List.append_assoc]
      · rw [hmore] at hanswers
        rcases hlast with rfl | ⟨call, rfl, hcall⟩
        · rw [List.append_nil] at hanswers
          exact hanswers
        · intro j call' hcall'
          cases j with
          | zero =>
            cases hcall'
            exact hcall
          | succ j =>
            rw [hanswers j call' hcall', List.length_append, List.length_singleton,
              Nat.add_assoc, Nat.add_comm 1 j]

end Advances

section Runs

/-- A plain subscriber hears the entries that it puts itself. -/
theorem hears_waitKey_of_plain (h : n.Plain) (db : Nat) (p : Payload) :
    n.hears db (n.waitKey p) = true := by
  have hheard := Notification.hears_of_plain h db (":" ++ encodePayload p)
  rw [← String.append_assoc] at hheard
  exact hheard

/-- Nothing is left of the chains on no keys. -/
theorem over_alone (n : Notification) (db : Nat) (value : String) :
    (alone n db).Over n db value := by
  refine ⟨fun _ _ => rfl, fun _ _ => rfl, ?_, busyPhase_of_none rfl⟩
  rintro event ⟨-, expiry, hexpiry, -⟩
  cases hexpiry

/-- A chain goes as the policies say, and can always be brought to its end, if the subscriber hears
the entries that it puts itself. -/
theorem chain_goes_by_policies {s₀ : Listening} {ls : List ListeningLabel}
    (hstart : (listeners n db).Reachable s₀) (hover : s₀.Over n db value)
    (hunlocked : s₀.base.store (n.lockKey value) = none)
    (hdecode : ∀ k : Nat, k < n.policies.length →
      decodePayload (keyspaceChannel db (n.waitKey ⟨k, value⟩)) = .ok ⟨k, value⟩)
    (hhears : ∀ k : Nat, k < n.policies.length → n.hears db (n.waitKey ⟨k, value⟩) = true)
    (hothers : ∀ l ∈ ls, Other n db value l)
    (hrun : (listeners n db).run s₀.restarted (.own (.put () ⟨0, value⟩) :: ls) = some s') :
    s'.ChainState n db value ∧ s'.CanEnd n db value := by
  obtain ⟨s₁, hput, hrest⟩ := (listeners n db).run_cons_iff.mp hrun
  have hrec := recorded_of_reachable hstart
  obtain ⟨policy, ⟨-, hpolicy⟩, -⟩ := exists_policy_of_put hrec.restarted hput
  have hleft : 0 < n.policies.length := (List.getElem?_eq_some_iff.mp hpolicy).1
  have hvalue : Decoded value := decoded_of_decodePayload (hdecode 0 hleft)
  have hguarded : (listeners n db).Guarded (fun _ => Other n db value) s₁ ls :=
    (listeners n db).guarded_of_forall fun l hl _ => hothers l hl
  have hchain : s'.InChain n db value :=
    (listeners n db).run_guarded
      (fun _ _ _ h hother hstep => h.step hvalue hdecode hother hstep)
      (inChain_of_put hrec hvalue hover hunlocked hput) hguarded hrest
  obtain ⟨v, k, calls, hsees, hgoing, hstage⟩ := hchain.stage
  exact ⟨chainState_of_stage hsees (announces_waitKey hdecode hhears) hgoing hstage,
    hchain.canEnd hvalue hdecode hhears⟩

/-- Two policies, and both times the handler wants the payload again. -/
def twice : Notification := { notificationOn "order" with policies := [minute, 5 * minute] }

/-- The value expires and is handled, twice. -/
def twiceSchedule : List ListeningLabel :=
  [.own (.expire "app:retry-order:17||0"), .own (.deliver () 0), .own (.setNX () false),
    .own (.handle () true), .own (.putNext () false), .own (.expire "app:retry-order:17||1"),
    .own (.deliver () 1), .own (.setNX () false), .own (.get () false), .own (.handle () true),
    .own (.unlock () false)]

/-- The value is handled under both policies. -/
theorem chain_of_two_policies :
    ∃ s', (listeners twice 0).run (alone twice 0).restarted
        (.own (.put () ⟨0, "17"⟩) :: twiceSchedule) = some s' ∧
      callsFor "17" s' = [⟨0, ⟨1, "17"⟩, true⟩, ⟨1, ⟨2, "17"⟩, true⟩] ∧
      s'.ChainState twice 0 "17" ∧ s'.CanEnd twice 0 "17" := by
  have hcalls : ((listeners twice 0).run (alone twice 0).restarted
      (.own (.put () ⟨0, "17"⟩) :: twiceSchedule)).map (callsFor "17") =
      some [⟨0, ⟨1, "17"⟩, true⟩, ⟨1, ⟨2, "17"⟩, true⟩] := by
    decide +kernel
  obtain ⟨s', hrun, hs'⟩ := Option.map_eq_some_iff.mp hcalls
  have hplain : twice.Plain := by
    unfold Notification.Plain
    decide +kernel
  refine ⟨s', hrun, hs', chain_goes_by_policies (reachable_alone twice 0)
    (over_alone twice 0 "17") rfl ?_ (fun k _ => hears_waitKey_of_plain hplain 0 _) ?_ hrun⟩
  · decide +kernel
  · simp [twiceSchedule, Other]

private theorem run_announced {p : Payload} {policy : Int} (hpolicy : PolicyOf n p policy)
    (hexpires : 0 < policy) :
    (listeners n db).run (alone n db) [.own (.put () p), .own (.expire (n.waitKey p))] =
      some (announced n db n p policy) := by
  have hput := step_of_moves (s := alone n db) (.put (.inr ⟨rfl, rfl⟩) hpolicy)
  refine (listeners n db).run_cons_iff.mpr ⟨_, hput, (listeners n db).run_cons_iff.mpr
    ⟨_, step_of_moves (.expire (Function.update_self ..) hexpires), ?_⟩⟩
  simp [alone, announced, notification, subscriber]

/-- What a subscriber does not hear is lost. -/
theorem over_announced {p : Payload} (hnot : n.hears db (n.waitKey p) = false) (policy : Int)
    (value : String) : (announced n db n p policy).Over n db value := by
  refine ⟨fun _ _ => store_announced .., fun _ _ => store_announced .., ?_, busyPhase_of_none rfl⟩
  rintro event ⟨-, expiry, hexpiry, hheard, -⟩
  have hkey : expiry = ⟨n.waitKey p, policy, some n.key⟩ :=
    List.mem_singleton.mp (List.mem_of_getElem? hexpiry)
  rw [hkey, hnot] at hheard
  cases hheard

/-- A key with brackets: the pattern does not match the channels that are named after it, and the
payload is lost without a call. -/
theorem payload_lost_under_brackets :
    (∀ k : Nat, k < (notificationOn "orders[eu]").policies.length →
      decodePayload (keyspaceChannel 0 ((notificationOn "orders[eu]").waitKey ⟨k, "17"⟩)) =
        .ok ⟨k, "17"⟩) ∧
      ∃ s', (listeners (notificationOn "orders[eu]") 0).run
          (alone (notificationOn "orders[eu]") 0).restarted
          [.own (.put () ⟨0, "17"⟩), .own (.expire "app:retry-orders[eu]:17||0")] = some s' ∧
        s'.Over (notificationOn "orders[eu]") 0 "17" ∧ callsFor "17" s' = [] ∧
        ¬s'.ChainState (notificationOn "orders[eu]") 0 "17" := by
  have hpolicy : PolicyOf (notificationOn "orders[eu]") ⟨0, "17"⟩ minute := ⟨by decide, rfl⟩
  have hkey : (notificationOn "orders[eu]").waitKey ⟨0, "17"⟩ = "app:retry-orders[eu]:17||0" := by
    decide +kernel
  have hnot : (notificationOn "orders[eu]").hears 0
      ((notificationOn "orders[eu]").waitKey ⟨0, "17"⟩) = false := by
    decide +kernel
  have hrun : (listeners (notificationOn "orders[eu]") 0).run _ _ = some _ :=
    run_announced hpolicy (by decide)
  have hover := over_announced hnot minute "17"
  rw [hkey] at hrun
  refine ⟨by decide +kernel, _, hrun, hover, rfl, fun hchain => ?_⟩
  obtain ⟨-, k, call, hcall, -⟩ := hchain.isOver.mp hover
  cases hcall

end Runs

end Listening

end Stardust.Redis
