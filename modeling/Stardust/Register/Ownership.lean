import Stardust.Register.LeaderSteps

/-!
# Who may stop a controller

A recorded controller belongs to the table and a controller taken out of it belongs to the call
that took it, while a registration stops the recorded controller under `leaderMu`. So no two
calls stop one controller, and a call of `Stop` that finds its controller stopped already comes
after the one that stopped it: whenever `Stop` returns, `done` is closed.
-/

namespace Stardust.Register

open Stardust.Core Function

/-- Whoever may stop a controller next. -/
inductive Owner where
  | nobody
  | table (serviceID : String)
  | call (i : Nat)
  deriving DecidableEq, Repr

variable {call : Call}

namespace Call

/-- The controllers that the call is stopping or about to stop. -/
def targets (call : Call) : List Nat :=
  match call.pc with
  | .stopping c rest _ => c :: rest
  | _ => []

/-- The owner of what the call is stopping: a registration leaves it in the table. -/
def owner (call : Call) (i : Nat) : Owner :=
  match call.op with
  | .registerService svc => .table svc.id
  | _ => .call i

/-- The call is inside `leaderMu`. -/
def HoldsLock (call : Call) : Prop :=
  (∃ svc, call.op = .registerService svc) ∧
    ((∃ c rest pc, call.pc = .stopping c rest pc) ∨ ∃ c, call.pc = .stopped c)

/-- A call with something to stop is at a place inside `Stop`. -/
theorem stopping_of_mem {c : Nat} (hc : c ∈ call.targets) :
    ∃ d rest pc, call.pc = .stopping d rest pc := by
  unfold targets at hc
  split at hc
  · exact ⟨_, _, _, by assumption⟩
  · cases hc

/-- Two calls with one owner are the same call, or both are registrations. -/
theorem owner_eq {a b : Call} {i j : Nat} (h : a.owner i = b.owner j) :
    i = j ∨ (∃ svc, a.op = .registerService svc) ∧ ∃ svc, b.op = .registerService svc := by
  unfold owner at h
  split at h <;> split at h
  · exact Or.inr ⟨⟨_, by assumption⟩, ⟨_, by assumption⟩⟩
  · cases h
  · cases h
  · exact Or.inl (Owner.call.inj h)

end Call

namespace ApisixGateway

/-- The owners agree with the table, the calls and the mutex. -/
structure Owned (s : ApisixGateway) (owner : Nat → Owner) : Prop where
  /-- The table owns what it records. -/
  table : ∀ serviceID c, (serviceID, c) ∈ s.leaderControllers → owner c = .table serviceID
  /-- A call stops only what it may stop. -/
  targets : ∀ i call c, s.calls i = some call → c ∈ call.targets → owner c = call.owner i
  /-- A registration in progress holds the mutex. -/
  locked : ∀ i call, s.calls i = some call → call.HoldsLock → s.leaderMu = some i
  /-- Nobody owns a controller that does not exist yet. -/
  fresh : ∀ c, s.created ≤ c → owner c = .nobody
  /-- A call that has not been made is at no place. -/
  uncalled : ∀ i, s.invoked ≤ i → s.calls i = none

variable {s s' : ApisixGateway} {owner : Nat → Owner} {i j c : Nat} {op : Op} {o : Outcome}

/-- A call at some place has been made. -/
theorem Owned.lt_invoked (h : s.Owned owner) (hi : s.calls i = some call) : i < s.invoked := by
  by_contra hle
  rw [h.uncalled i (by omega)] at hi
  cases hi

/-- No two calls stop one controller. -/
theorem Owned.exclusive (h : s.Owned owner) {a b : Call} (hi : s.calls i = some a)
    (hj : s.calls j = some b) (ha : c ∈ a.targets) (hb : c ∈ b.targets) : i = j := by
  have howner : a.owner i = b.owner j := by
    rw [← h.targets i a c hi ha, ← h.targets j b c hj hb]
  rcases Call.owner_eq howner with heq | ⟨hopa, hopb⟩
  · exact heq
  · have hlocka := h.locked i a hi ⟨hopa, Or.inl (Call.stopping_of_mem ha)⟩
    have hlockb := h.locked j b hj ⟨hopb, Or.inl (Call.stopping_of_mem hb)⟩
    rw [hlocka] at hlockb
    exact Option.some.inj hlockb

/-- While nobody holds the mutex, calls own what they stop. -/
theorem Owned.owner_of_unlocked (h : s.Owned owner) (hmu : s.leaderMu = none)
    (hj : s.calls j = some call) (hc : c ∈ call.targets) : owner c = .call j := by
  rw [h.targets j call c hj hc]
  unfold Call.owner
  split
  · next svc hop =>
    have hlock := h.locked j call hj ⟨⟨svc, hop⟩, Or.inl (Call.stopping_of_mem hc)⟩
    rw [hmu] at hlock
    cases hlock
  · rfl

/-- After one call has moved, a call stands where that one went, or where it stood before. -/
theorem calls_of_update {call other : Call}
    (hcalls : s'.calls = update s.calls i (some call)) (hj : s'.calls j = some other) :
    j = i ∧ other = call ∨ j ≠ i ∧ s.calls j = some other := by
  rw [hcalls, update_apply] at hj
  split at hj
  · next hij => exact Or.inl ⟨hij, (Option.some.inj hj).symm⟩
  · next hij => exact Or.inr ⟨hij, hj⟩

/-- A call that has not been made does not move. -/
theorem Owned.uncalled_of_update (h : s.Owned owner)
    (hcalls : s'.calls = update s.calls i (some call))
    (hinvoked : s.invoked ≤ s'.invoked) (hi : i < s'.invoked) (hj : s'.invoked ≤ j) :
    s'.calls j = none := by
  rw [hcalls, update_of_ne (by omega)]
  exact h.uncalled j (by omega)

/-- A call may move to a place whose controllers it owns, and take the mutex when it is free. -/
theorem Owned.setCall (h : s.Owned owner) (call : Call)
    (hcalls : s'.calls = update s.calls i (some call))
    (htable : s'.leaderControllers = s.leaderControllers)
    (hmu : ∀ k, s.leaderMu = some k → s'.leaderMu = some k) (hcreated : s'.created = s.created)
    (hinvoked : s.invoked ≤ s'.invoked) (hi : i < s'.invoked)
    (htargets : ∀ c ∈ call.targets, owner c = call.owner i)
    (hlock : call.HoldsLock → s'.leaderMu = some i) : s'.Owned owner where
  table := by rw [htable]; exact h.table
  targets := by
    intro j other c hj hc
    rcases calls_of_update hcalls hj with ⟨rfl, rfl⟩ | ⟨-, hj⟩
    · exact htargets c hc
    · exact h.targets j other c hj hc
  locked := by
    intro j other hj hholds
    rcases calls_of_update hcalls hj with ⟨rfl, rfl⟩ | ⟨-, hj⟩
    · exact hlock hholds
    · exact hmu j (h.locked j other hj hholds)
  fresh := by rw [hcreated]; exact h.fresh
  uncalled := fun _ hj => h.uncalled_of_update hcalls (by omega) (by omega) hj

/-- A call may move to a place where it stops nothing and needs no mutex. -/
theorem Owned.leave (h : s.Owned owner) (hi : s.calls i = some call) (op : Op) {pc : Pc}
    (hpc : (∃ d, pc = .deleting d) ∨ ∃ err, pc = .returned err) :
    (s.setCall i op pc).Owned owner := by
  refine h.setCall ⟨op, pc⟩ rfl rfl (fun _ hk => hk) rfl le_rfl (h.lt_invoked hi) ?_ ?_
  · intro c hc
    obtain ⟨d, rest, at', hstopping⟩ := Call.stopping_of_mem hc
    rcases hpc with ⟨d, rfl⟩ | ⟨err, rfl⟩ <;> cases hstopping
  · rintro ⟨-, ⟨d, rest, at', hstopping⟩ | ⟨d, hstopped⟩⟩
    · rcases hpc with ⟨d, rfl⟩ | ⟨err, rfl⟩ <;> cases hstopping
    · rcases hpc with ⟨d, rfl⟩ | ⟨err, rfl⟩ <;> cases hstopped

/-- Requests do not concern the owners. -/
theorem Owned.issue (h : s.Owned owner) (g : Gateway) (service : String)
    (controller call : Option Nat) : (s.issue g service controller call).Owned owner :=
  ⟨h.table, h.targets, h.locked, h.fresh, h.uncalled⟩

/-- A call may take controllers out of the table. -/
theorem Owned.take (h : s.Owned owner) (hmu : s.leaderMu = none)
    (hcalls : s'.calls = update s.calls i (some call))
    (hsub : ∀ p ∈ s'.leaderControllers, p ∈ s.leaderControllers ∧ p.2 ∉ call.targets)
    (hmu' : s'.leaderMu = s.leaderMu) (hcreated : s'.created = s.created)
    (hinvoked : s'.invoked = s.invoked) (hi : i < s.invoked)
    (htaken : ∀ c ∈ call.targets, ∃ id, owner c = .table id) (howner : call.owner i = .call i)
    (hlock : ¬ call.HoldsLock) :
    s'.Owned fun c => if c ∈ call.targets then .call i else owner c where
  table := by
    intro id c hc
    obtain ⟨hmem, hnot⟩ := hsub _ hc
    dsimp only at hnot
    rw [if_neg hnot]
    exact h.table id c hmem
  targets := by
    intro j other c hj hc
    rcases calls_of_update hcalls hj with ⟨rfl, rfl⟩ | ⟨-, hj⟩
    · rw [if_pos hc, howner]
    · have hold := h.owner_of_unlocked hmu hj hc
      have hnot : c ∉ call.targets := by
        intro hc'
        obtain ⟨id, hid⟩ := htaken c hc'
        rw [hold] at hid
        cases hid
      rw [if_neg hnot]
      exact h.targets j other c hj hc
  locked := by
    intro j other hj hholds
    rw [hmu']
    rcases calls_of_update hcalls hj with ⟨-, rfl⟩ | ⟨-, hj⟩
    · exact absurd hholds hlock
    · exact h.locked j other hj hholds
  fresh := by
    intro c hc
    rw [hcreated] at hc
    have hnobody := h.fresh c hc
    have hnot : c ∉ call.targets := by
      intro hc'
      obtain ⟨id, hid⟩ := htaken c hc'
      rw [hnobody] at hid
      cases hid
    rw [if_neg hnot]
    exact hnobody
  uncalled := fun _ hj => h.uncalled_of_update hcalls (by omega) (by omega) hj

/-- The registration that holds the mutex may return and release it, recording a controller that
did not exist before. -/
theorem Owned.install (h : s.Owned owner) (serviceID : String) {old call : Call}
    (hold : s.calls i = some old) (hholds : old.HoldsLock)
    (hcalls : s'.calls = update s.calls i (some call))
    (htable : ∀ p ∈ s'.leaderControllers, p ∈ s.leaderControllers ∨
      p = (serviceID, s.created) ∧ s.created < s'.created)
    (hcreated : s.created ≤ s'.created) (hinvoked : s'.invoked = s.invoked)
    (hreturned : ∃ err, call.pc = .returned err) :
    s'.Owned (if s.created < s'.created then
      update owner s.created (.table serviceID) else owner) := by
  have hkeep : ∀ c, owner c ≠ .nobody → (if s.created < s'.created then
      update owner s.created (.table serviceID) else owner) c = owner c := by
    intro c hc
    split
    · rw [update_of_ne]
      rintro rfl
      exact hc (h.fresh _ le_rfl)
    · rfl
  have hlt := h.lt_invoked hold
  obtain ⟨err, hpc⟩ := hreturned
  have hnobody : ∀ j other, s'.calls j = some other → ¬ other.HoldsLock := by
    intro j other hj hother
    rcases calls_of_update hcalls hj with ⟨-, rfl⟩ | ⟨hij, hj⟩
    · rcases hother.2 with ⟨d, rest, pc, hstopping⟩ | ⟨d, hstopped⟩
      · rw [hpc] at hstopping
        cases hstopping
      · rw [hpc] at hstopped
        cases hstopped
    · have hi := h.locked i old hold hholds
      rw [h.locked j other hj hother] at hi
      exact hij (Option.some.inj hi)
  constructor
  · intro id c hc
    rcases htable _ hc with hmem | ⟨heq, hnew⟩
    · have howner := h.table id c hmem
      rw [hkeep c (by rw [howner]; simp), howner]
    · cases heq
      rw [if_pos hnew, update_self]
  · intro j other c hj hc
    rcases calls_of_update hcalls hj with ⟨-, rfl⟩ | ⟨-, hj⟩
    · obtain ⟨d, rest, pc, hstopping⟩ := Call.stopping_of_mem hc
      rw [hpc] at hstopping
      cases hstopping
    · have howner := h.targets j other c hj hc
      rw [hkeep c (by rw [howner]; unfold Call.owner; split <;> simp), howner]
  · intro j other hj hother
    exact absurd hother (hnobody j other hj)
  · intro c hc
    rw [← h.fresh c (by omega)]
    split
    · rw [update_of_ne (by omega)]
    · rfl
  · intro j hj
    exact h.uncalled_of_update hcalls (by omega) (by omega) hj

/-- Every section of a call keeps the owners in agreement. -/
theorem Owned.proceed (h : s.Owned owner) (hs : s.Section i o s') :
    ∃ owner', s'.Owned owner' := by
  cases hs with
  | skip op hi _ => exact ⟨owner, h.leave hi _ (Or.inr ⟨_, rfl⟩)⟩
  | registerDirect svc hi _ => exact ⟨owner, (h.issue ..).leave hi _ (Or.inr ⟨_, rfl⟩)⟩
  | deregisterDirect id hi _ _ => exact ⟨owner, h.leave hi _ (Or.inl ⟨_, rfl⟩)⟩
  | lockTable svc pc hi hmu hpc =>
    refine ⟨owner, h.setCall _ rfl rfl (fun k hk => ?_) rfl le_rfl (h.lt_invoked hi) ?_
      fun _ => rfl⟩
    · rw [hmu] at hk
      cases hk
    intro d hd
    rcases hpc with ⟨old, hlookup, rfl⟩ | rfl
    · obtain rfl : d = old := by simpa [Call.targets] using hd
      exact h.table _ _ (mem_of_lookup hlookup)
    · cases hd
  | take id pc hi hmu hpc =>
    have htaken : ∀ d ∈ Call.targets ⟨.deregisterService id, pc⟩, owner d = .table id := by
      intro d hd
      rcases hpc with ⟨old, hlookup, rfl⟩ | ⟨-, rfl⟩
      · obtain rfl : d = old := by simpa [Call.targets] using hd
        exact h.table _ _ (mem_of_lookup hlookup)
      · cases hd
    refine ⟨_, h.take hmu rfl ?_ rfl rfl rfl (h.lt_invoked hi)
      (fun d hd => ⟨id, htaken d hd⟩) rfl (by simp [Call.HoldsLock])⟩
    intro p hp
    obtain ⟨hmem, hne⟩ := List.mem_filter.mp hp
    refine ⟨hmem, fun hd => ?_⟩
    have howner := h.table p.1 p.2 hmem
    rw [htaken p.2 hd] at howner
    exact of_decide_eq_true hne (Owner.table.inj howner).symm
  | takeAll pc hi hmu hperm hpc =>
    refine ⟨_, h.take hmu rfl (fun p hp => nomatch hp) rfl rfl rfl (h.lt_invoked hi) ?_ rfl
      (by simp [Call.HoldsLock])⟩
    intro d hd
    have horder : d ∈ o.order := by
      rcases hpc with ⟨first, rest, horder, rfl⟩ | rfl
      · rw [horder]
        exact hd
      · cases hd
    obtain ⟨p, hp, rfl⟩ := List.mem_map.mp (hperm.mem_iff.mp horder)
    exact ⟨p.1, h.table p.1 p.2 hp⟩
  | stopLock op c rest ctl hi _ _ =>
    exact ⟨owner, h.setCall _ rfl rfl (fun _ hk => hk) rfl le_rfl (h.lt_invoked hi)
      (fun d hd => h.targets i ⟨op, .stopping c rest .lock⟩ d hi hd)
      fun hholds => h.locked i _ hi ⟨hholds.1, Or.inl ⟨c, rest, .lock, rfl⟩⟩⟩
  | stopCancel op c rest ctl hi _ =>
    exact ⟨owner, h.setCall _ rfl rfl (fun _ hk => hk) rfl le_rfl (h.lt_invoked hi)
      (fun d hd => h.targets i ⟨op, .stopping c rest .cancel⟩ d hi hd)
      fun hholds => h.locked i _ hi ⟨hholds.1, Or.inl ⟨c, rest, .cancel, rfl⟩⟩⟩
  | stopReturn op c rest pc ctl hi _ _ =>
    refine ⟨owner, h.setCall _ rfl rfl (fun _ hk => hk) rfl le_rfl (h.lt_invoked hi) ?_
      fun hholds => h.locked i _ hi ⟨hholds.1, Or.inl ⟨c, rest, pc, rfl⟩⟩⟩
    intro d hd
    cases rest with
    | nil => cases hd
    | cons next rest =>
      exact h.targets i ⟨op, .stopping c (next :: rest) pc⟩ d hi (List.mem_cons_of_mem c hd)
  | registerFailed svc d err hi =>
    exact ⟨_, h.install svc.id hi ⟨⟨svc, rfl⟩, Or.inr ⟨d, rfl⟩⟩ rfl (fun p hp => Or.inl hp)
      le_rfl rfl ⟨_, rfl⟩⟩
  | install svc d ctl ctl' hi _ _ =>
    refine ⟨_, h.install svc.id hi ⟨⟨svc, rfl⟩, Or.inr ⟨d, rfl⟩⟩ rfl ?_ (Nat.le_succ _) rfl
      ⟨_, rfl⟩⟩
    intro p hp
    rcases List.mem_cons.mp hp with rfl | hp
    · exact Or.inr ⟨rfl, Nat.lt_succ_self _⟩
    · exact Or.inl (List.mem_filter.mp hp).1
  | keep id d hi _ => exact ⟨owner, h.leave hi _ (Or.inr ⟨_, rfl⟩)⟩
  | agree id d hi _ _ => exact ⟨owner, h.leave hi _ (Or.inl ⟨_, rfl⟩)⟩
  | closed d hi => exact ⟨owner, h.leave hi _ (Or.inr ⟨_, rfl⟩)⟩
  | delete id d hi => exact ⟨owner, (h.issue ..).leave hi _ (Or.inr ⟨_, rfl⟩)⟩

/-- Every step keeps the owners in agreement. -/
theorem Owned.step (h : s.Owned owner) {l : Label} (hs : s.step l = some s') :
    ∃ owner', s'.Owned owner' := by
  cases l with
  | invoke op =>
    cases hs
    exact ⟨owner, h.setCall ⟨op, .entry⟩ rfl rfl (fun _ hk => hk) rfl (Nat.le_succ _)
      (Nat.lt_succ_self _) (fun c hc => nomatch hc) (by simp [Call.HoldsLock])⟩
  | proceed i o => exact h.proceed (proceed_section hs)
  | elect c e ans =>
    obtain ⟨ctl, ctl', -, -, ⟨-, rfl⟩ | rfl⟩ := elect_cases hs
    · exact ⟨owner, h.table, h.targets, h.locked, h.fresh, h.uncalled⟩
    · exact ⟨owner, h.table, h.targets, h.locked, h.fresh, h.uncalled⟩

/-- Every `Stop` that returned found `done` closed, and every other one that began is still in
progress. -/
structure Stopping (s : ApisixGateway) : Prop where
  /-- A controller whose `Stop` has returned has left the election. -/
  closed : ∀ c ctl, s.controllers c = some ctl → ctl.stopped = true → ctl.election = .closed
  /-- A controller that is not started has been stopped or is being stopped. -/
  pending : ∀ c ctl, s.controllers c = some ctl → ctl.started = false → ctl.stopped = true ∨
    ∃ i op rest pc, s.calls i = some ⟨op, .stopping c rest pc⟩ ∧ pc ≠ .lock

/-- `Stop` returns only when `done` is closed. -/
theorem Owned.closed_of_stop (h : s.Owned owner) (hstop : s.Stopping) {ctl : Controller}
    {rest : List Nat} {pc : StopPc} (hc : s.controllers c = some ctl)
    (hi : s.calls i = some ⟨op, .stopping c rest pc⟩)
    (hwhy : pc = .lock ∧ ctl.started = false ∨ ctl.election = .closed) :
    ctl.election = .closed := by
  rcases hwhy with ⟨rfl, hstarted⟩ | hclosed
  · rcases hstop.pending c ctl hc hstarted with hstopped | ⟨j, op', rest', pc', hj, hpc⟩
    · exact hstop.closed c ctl hc hstopped
    · have hij := h.exclusive hi hj (List.mem_cons_self ..) (List.mem_cons_self ..)
      subst hij
      rw [hi] at hj
      cases hj
      exact absurd rfl hpc
  · exact hclosed

/-- The sections of a call inside `Stop`: it marks the controller, cancels, or returns. -/
theorem Section.of_stopping (hs : s.Section i o s') {rest : List Nat} {pc : StopPc}
    (hi : s.calls i = some ⟨op, .stopping c rest pc⟩) :
    ∃ ctl, s.controllers c = some ctl ∧
      (s' = (s.setController c { ctl with started := false }).setCall i op
          (.stopping c rest .cancel) ∨
        s' = (s.setController c { ctl with cancelled := true }).setCall i op
          (.stopping c rest .wait) ∨
        (pc = .lock ∧ ctl.started = false ∨ ctl.election = .closed) ∧
          s' = (s.setController c { ctl with stopped := true }).setCall i op
            (afterStop c rest)) := by
  cases hs with
  | stopLock op' d rest' ctl hi' hd _ =>
    rw [hi] at hi'
    cases hi'
    exact ⟨ctl, hd, Or.inl rfl⟩
  | stopCancel op' d rest' ctl hi' hd =>
    rw [hi] at hi'
    cases hi'
    exact ⟨ctl, hd, Or.inr (Or.inl rfl)⟩
  | stopReturn op' d rest' pc' ctl hi' hd hwhy =>
    rw [hi] at hi'
    cases hi'
    exact ⟨ctl, hd, Or.inr (Or.inr ⟨hwhy, rfl⟩)⟩
  | _ =>
    have heq := hi.symm.trans ‹s.calls i = some _›
    cases heq

/-- A call inside `Stop` returns from it or stays inside, past the first section. -/
theorem Section.stopping (hs : s.Section i o s') {rest : List Nat} {pc : StopPc}
    (hi : s.calls i = some ⟨op, .stopping c rest pc⟩) :
    (∃ ctl, s'.controllers c = some ctl ∧ ctl.stopped = true) ∨
      ∃ pc', s'.calls i = some ⟨op, .stopping c rest pc'⟩ ∧ pc' ≠ .lock := by
  obtain ⟨ctl, -, rfl | rfl | ⟨-, rfl⟩⟩ := hs.of_stopping hi
  · exact Or.inr ⟨.cancel, update_self .., by simp⟩
  · exact Or.inr ⟨.wait, update_self .., by simp⟩
  · exact Or.inl ⟨_, update_self .., rfl⟩

/-- A `Stop` in progress stays so until it returns. -/
theorem stopping_step (h : s.Owned owner) {l : Label} (hs : s.step l = some s')
    {rest : List Nat} {pc : StopPc} (hi : s.calls i = some ⟨op, .stopping c rest pc⟩)
    (hpc : pc ≠ .lock) :
    (∃ ctl, s'.controllers c = some ctl ∧ ctl.stopped = true) ∨
      ∃ pc', s'.calls i = some ⟨op, .stopping c rest pc'⟩ ∧ pc' ≠ .lock := by
  by_cases hl : ∃ o, l = .proceed i o
  · obtain ⟨o, rfl⟩ := hl
    exact (proceed_section hs).stopping hi
  · refine Or.inr ⟨pc, ?_, hpc⟩
    rw [step_calls_of_ne hs (h.lt_invoked hi) fun o hlo => hl ⟨o, hlo⟩]
    exact hi

/-- Every step keeps returned and unfinished calls of `Stop` apart. -/
theorem Stopping.step (hstop : s.Stopping) (h : s.Owned owner) {l : Label}
    (hs : s.step l = some s') : s'.Stopping where
  closed := by
    intro c ctl' hc hstopped
    cases step_changes hs hc with
    | same hold => exact hstop.closed c ctl' hold hstopped
    | event ctl e ans hl hold he =>
      obtain ⟨-, -, hsame, hclosed, -⟩ := Controller.event_frame he
      exact hclosed (hstop.closed c ctl hold (hsame ▸ hstopped))
    | locked ctl i o op rest hl hold hi heq =>
      subst heq
      exact hstop.closed c ctl hold hstopped
    | cancelled ctl hold heq =>
      subst heq
      exact hstop.closed c ctl hold hstopped
    | stopped ctl i op rest pc hold hi hwhy heq =>
      have hclosed := h.closed_of_stop hstop hold hi hwhy
      rw [heq]
      exact hclosed
    | started svc ctl access hfresh hnext hnew hstart =>
      rw [(Controller.start_of_new hnew hstart).2.2.2.2.2.2] at hstopped
      cases hstopped
  pending := by
    intro c ctl' hc hstarted
    have hnow : ∀ i op rest, ((∃ ctl, s'.controllers c = some ctl ∧ ctl.stopped = true) ∨
        ∃ pc', s'.calls i = some ⟨op, .stopping c rest pc'⟩ ∧ pc' ≠ .lock) →
          ctl'.stopped = true ∨
            ∃ i op rest pc, s'.calls i = some ⟨op, .stopping c rest pc⟩ ∧ pc ≠ .lock := by
      rintro i op rest (⟨ctl, hctl, hstopped⟩ | ⟨pc, hi, hpc⟩)
      · rw [hc] at hctl
        cases hctl
        exact Or.inl hstopped
      · exact Or.inr ⟨i, op, rest, pc, hi, hpc⟩
    have hkeep : ∀ ctl, s.controllers c = some ctl → ctl.started = false →
        (ctl.stopped = true → ctl'.stopped = true) → ctl'.stopped = true ∨
          ∃ i op rest pc, s'.calls i = some ⟨op, .stopping c rest pc⟩ ∧ pc ≠ .lock := by
      intro ctl hold hwas hsame
      rcases hstop.pending c ctl hold hwas with hstopped | ⟨i, op, rest, pc, hi, hpc⟩
      · exact Or.inl (hsame hstopped)
      · exact hnow i op rest (stopping_step h hs hi hpc)
    cases step_changes hs hc with
    | same hold => exact hkeep ctl' hold hstarted id
    | event ctl e ans hl hold he =>
      obtain ⟨-, hsame, hstopped, -, -⟩ := Controller.event_frame he
      exact hkeep ctl hold (hsame ▸ hstarted) fun hwas => hstopped ▸ hwas
    | locked ctl i o op rest hl hold hi heq =>
      subst hl
      exact hnow i op rest ((proceed_section hs).stopping hi)
    | cancelled ctl hold heq =>
      subst heq
      exact hkeep ctl hold hstarted id
    | stopped ctl i op rest pc hold hi hwhy heq =>
      subst heq
      exact Or.inl rfl
    | started svc ctl access hfresh hnext hnew hstart =>
      rw [(Controller.start_of_new hnew hstart).2.1] at hstarted
      cases hstarted

/-- The invariant of the calls and controllers of a gateway. -/
structure Orderly (s : ApisixGateway) : Prop where
  /-- Somebody may stop each controller, and nobody else. -/
  owned : ∃ owner, s.Owned owner
  /-- `Stop` returns when `done` is closed. -/
  stopping : s.Stopping
  /-- There are no controllers but those created. -/
  born : s.Born

/-- A gateway starts with nothing to stop. -/
theorem orderly_of_init (hs : leaderSystem.init s) : s.Orderly := by
  obtain ⟨-, -, -, hcontrollers, hcreated, htable, hmu, hcalls, hinvoked, -⟩ := hs
  refine ⟨⟨fun _ => .nobody, ?_, ?_, ?_, fun _ _ => rfl, ?_⟩, ⟨?_, ?_⟩, ?_⟩
  · simp [htable]
  · simp [hcalls]
  · simp [hcalls]
  · simp [hcalls]
  · simp [hcontrollers]
  · simp [hcontrollers]
  · simp [Born, hcontrollers]

/-- Every step keeps a gateway orderly. -/
theorem Orderly.step (hs : s.Orderly) {l : Label} (hstep : s.step l = some s') : s'.Orderly := by
  obtain ⟨⟨owner, howned⟩, hstop, hborn⟩ := hs
  exact ⟨howned.step hstep, hstop.step howned hstep, hborn.step hstep⟩

end ApisixGateway

end Stardust.Register
