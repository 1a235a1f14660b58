import Stardust.Syncx.SharedCalls

/-!
# The ownership invariant of shared calls

Every allocated call belongs to the caller that allocated it, every map entry
belongs to a caller that has not left the map yet, and every pointer held by a
waiter or returned to a caller leads to a call for the same key. The invariant is
inductive for all interleavings, panics included.
-/

namespace Stardust.Syncx

open SharedCalls

variable {Pid Key V E : Type*}

/-- The fields and the history of a call agree with the position of its runner. -/
def Call.Matches (cell : Call Pid Key V E) : Phase → Prop
  | .running => cell.wg = 1 ∧ cell.outcome = none
  | .finished => cell.wg = 1 ∧ ∃ t, cell.outcome = some (.returned cell.val cell.err t)
  | .notified => cell.wg = 0 ∧ ∃ t, cell.outcome = some (.returned cell.val cell.err t)
  | .panicked => cell.wg = 1 ∧ cell.outcome = some .panicked

/-- The runner of the call at address `c` is still leading it or has returned it fresh. -/
def Call.RunBy (cell : Call Pid Key V E) (c : Nat) : Pc Key V E → Prop
  | .leading phase key c' _ => c' = c ∧ key = cell.key ∧ cell.Matches phase
  | .returned key c' _ _ fresh _ => c' = c ∧ key = cell.key ∧ fresh = true ∧
      cell.Matches .notified
  | _ => False

/-- The pointers that a caller holds are what its position says. -/
def SharedCalls.Holds (s : SharedCalls Pid Key V E) (p : Pid) : Pc Key V E → Prop
  | .idle | .entered _ _ => True
  | .waiting key c _ => ∃ cell, s.heap c = some cell ∧ cell.key = key
  | .leading _ key c _ => s.calls key = some c ∧ ∃ cell, s.heap c = some cell ∧ cell.runner = p
  | .returned key c _ val fresh err => ∃ cell, s.heap c = some cell ∧ cell.key = key ∧
      cell.wg = 0 ∧ cell.val = val ∧ cell.err = err ∧ (fresh = true ↔ cell.runner = p)

/-- Ownership of calls, map entries, and held pointers. -/
structure SharedCalls.Inv (s : SharedCalls Pid Key V E) : Prop where
  /-- Addresses from `next` on are unused. -/
  unused : ∀ c, s.next ≤ c → s.heap c = none
  /-- Every call is accounted for by its runner. -/
  run : ∀ c cell, s.heap c = some cell → cell.RunBy c (s.pc cell.runner)
  /-- Every map entry is led by the runner of its call. -/
  entry : ∀ key c, s.calls key = some c → ∃ cell phase began,
    s.heap c = some cell ∧ s.pc cell.runner = .leading phase key c began
  /-- Every caller holds the pointers of its position. -/
  holds : ∀ p, s.Holds p (s.pc p)

/-- A call keeps its key and runner, and after `wg.Done` also its results. -/
def Call.Grows (cell cell' : Call Pid Key V E) : Prop :=
  cell'.key = cell.key ∧ cell'.runner = cell.runner ∧
    (cell.wg = 0 → cell'.wg = 0 ∧ cell'.val = cell.val ∧ cell'.err = cell.err)

private theorem Call.Grows.refl (cell : Call Pid Key V E) : cell.Grows cell :=
  ⟨rfl, rfl, fun h => ⟨h, rfl, rfl⟩⟩

/-- The construction satisfies the invariant with nothing allocated. -/
theorem newSharedCalls_inv : (newSharedCalls : SharedCalls Pid Key V E).Inv where
  unused _ _ := rfl
  run _ _ h := by cases h
  entry _ _ h := by cases h
  holds _ := trivial

variable {s s' : SharedCalls Pid Key V E}

/-- A leading caller runs the call it points to, at the phase the call records. -/
theorem SharedCalls.Inv.leading (hinv : s.Inv) {p : Pid} {phase : Phase} {key : Key}
    {c began : Nat} (hp : s.pc p = .leading phase key c began) :
    s.calls key = some c ∧ ∃ cell, s.heap c = some cell ∧ cell.runner = p ∧ cell.key = key ∧
      cell.Matches phase := by
  have hh := hinv.holds p
  rw [hp] at hh
  obtain ⟨hc, cell, hcell, hrun⟩ := hh
  have hr := hinv.run c cell hcell
  rw [hrun, hp] at hr
  exact ⟨hc, cell, hcell, hrun, hr.2.1.symm, hr.2.2⟩

variable {cell : Call Pid Key V E}

/-- A caller leads at most one address. -/
theorem SharedCalls.Inv.runner_address (hinv : s.Inv) {p : Pid} {phase : Phase} {key : Key}
    {c d began : Nat} (hp : s.pc p = .leading phase key c began) (hd : s.heap d = some cell)
    (hr : cell.runner = p) : d = c := by
  have h := hinv.run d cell hd
  rw [hr, hp] at h
  exact h.1.symm

/-- A caller that has not looked up yet, or is waiting, runs no call. -/
theorem SharedCalls.Inv.not_runner (hinv : s.Inv) {p : Pid} {c : Nat} {pc : Pc Key V E}
    (hc : s.heap c = some cell) (hp : s.pc p = pc) (hpc : ¬ cell.RunBy c pc) : cell.runner ≠ p := by
  rintro rfl
  exact hpc (hp ▸ hinv.run c cell hc)

/-- Two callers that lead calls for one key are the same caller. -/
theorem SharedCalls.Inv.leader_unique (hinv : s.Inv) {p q : Pid} {ph ph' : Phase} {key : Key}
    {c d b b' : Nat} (hp : s.pc p = .leading ph key c b) (hq : s.pc q = .leading ph' key d b') :
    p = q := by
  obtain ⟨hc, cell, hcell, hrun, _⟩ := hinv.leading hp
  obtain ⟨hd, cell', hcell', hrun', _⟩ := hinv.leading hq
  obtain rfl : c = d := Option.some.inj (hc.symm.trans hd)
  obtain rfl : cell = cell' := Option.some.inj (hcell.symm.trans hcell')
  exact hrun.symm.trans hrun'

variable {l : Label Pid Key V E}

/-- Writing a call belongs to its runner. -/
theorem Call.Advance.actor {cell cell' : Call Pid Key V E} {p : Pid} {now : Nat} {ph ph' : Phase}
    (h : cell.Advance p now l ph cell' ph') : l.actor = p := by
  cases h <;> rfl

/-- Writing a call keeps its key and runner and reaches what the next phase expects. -/
theorem Call.Advance.matches {cell cell' : Call Pid Key V E} {p : Pid} {now : Nat}
    {ph ph' : Phase} (h : cell.Advance p now l ph cell' ph') (hm : cell.Matches ph) :
    cell'.Matches ph' ∧ cell.Grows cell' := by
  cases h with
  | fnReturn val err =>
    exact ⟨⟨hm.1, now, rfl⟩, rfl, rfl, fun hz => absurd (hm.1.symm.trans hz) (by decide)⟩
  | fnPanic =>
    exact ⟨⟨hm.1, rfl⟩, rfl, rfl, fun hz => ⟨hz, rfl, rfl⟩⟩
  | wgDone =>
    obtain ⟨hwg, hout⟩ := hm
    exact ⟨⟨by simp [hwg], hout⟩, rfl, rfl, fun hz => ⟨by simp [hz], rfl, rfl⟩⟩

variable [DecidableEq Pid] [DecidableEq Key]

/-- Only the acting caller changes position. -/
theorem SharedCalls.Step.pc_other (h : s.Step l s') {q : Pid} (hq : q ≠ l.actor) :
    s'.pc q = s.pc q := by
  cases h with
  | advance hp hc hadv =>
    rw [hadv.actor] at hq
    exact move_pc_of_ne _ _ hq
  | _ => exact move_pc_of_ne _ _ hq

/-- Calls are never freed, and results are stable once the wait group is released. -/
theorem SharedCalls.Step.heap_grows (h : s.Step l s') (hinv : s.Inv) {c : Nat}
    (hc : s.heap c = some cell) : ∃ cell', s'.heap c = some cell' ∧ cell.Grows cell' := by
  cases h with
  | invoke | join | delete | wake => exact ⟨cell, hc, Call.Grows.refl cell⟩
  | lead =>
    have hne : c ≠ s.next := by
      rintro rfl
      rw [hinv.unused _ (Nat.le_refl _)] at hc
      cases hc
    exact ⟨cell, (s.allocate_heap_of_ne _ _ hne).trans hc, Call.Grows.refl cell⟩
  | @advance p key d began old new ph ph' _ hp hd hadv =>
    by_cases he : c = d
    · subst he
      obtain rfl : cell = old := Option.some.inj (hc.symm.trans hd)
      obtain ⟨_, cell', hcell', _, _, hm⟩ := hinv.leading hp
      obtain rfl : cell = cell' := Option.some.inj (hc.symm.trans hcell')
      exact ⟨new, s.store_heap_self _ _, (hadv.matches hm).2⟩
    · exact ⟨cell, (s.store_heap_of_ne _ he).trans hc, Call.Grows.refl cell⟩

/-- A call that the actor does not run was there before the step, unchanged. -/
theorem SharedCalls.Step.heap_other (h : s.Step l s') (hinv : s.Inv) {c : Nat}
    (hc : s'.heap c = some cell) (hr : cell.runner ≠ l.actor) : s.heap c = some cell := by
  cases h with
  | invoke | join | delete | wake => exact hc
  | lead =>
    by_cases he : c = s.next
    · subst he
      obtain rfl := Option.some.inj (hc.symm.trans (s.allocate_heap_self _ _))
      exact absurd rfl hr
    · exact (s.allocate_heap_of_ne _ _ he).symm.trans hc
  | @advance p key d began old new ph ph' _ hp hd hadv =>
    by_cases he : c = d
    · subst he
      obtain ⟨_, cell', hcell', hrun, _, hm⟩ := hinv.leading hp
      obtain rfl : old = cell' := Option.some.inj (hd.symm.trans hcell')
      obtain rfl := Option.some.inj (hc.symm.trans (s.store_heap_self _ _))
      rw [hadv.actor] at hr
      exact absurd ((hadv.matches hm).2.2.1.trans hrun) hr
    · exact (s.store_heap_of_ne _ he).symm.trans hc

/-- The map entry under which another caller leads is left alone. -/
theorem SharedCalls.Step.calls_other (h : s.Step l s') (hinv : s.Inv) {q : Pid} {phase : Phase}
    {key : Key} {c began : Nat} (hq : q ≠ l.actor) (hpc : s.pc q = .leading phase key c began) :
    s'.calls key = s.calls key := by
  cases h with
  | invoke | join | advance | wake => rfl
  | @lead p k b hp hnone =>
    refine s.allocate_calls_of_ne p ?_
    rintro rfl
    rw [(hinv.leading hpc).1] at hnone
    cases hnone
  | @delete p k d b cell hp hd =>
    refine s.deleteKey_calls_of_ne ?_
    rintro rfl
    exact hq (hinv.leader_unique hpc hp)

/-- Other callers keep holding what their position says. -/
theorem SharedCalls.Step.holds_other (h : s.Step l s') (hinv : s.Inv) {q : Pid} (hq : q ≠ l.actor) :
    s'.Holds q (s'.pc q) := by
  rw [h.pc_other hq]
  have hold := hinv.holds q
  cases hpc : s.pc q with
  | idle => trivial
  | entered key b => trivial
  | waiting key c b =>
    rw [hpc] at hold
    obtain ⟨cell, hcell, hkey⟩ := hold
    obtain ⟨cell', hcell', hgrow⟩ := h.heap_grows hinv hcell
    exact ⟨cell', hcell', hgrow.1.trans hkey⟩
  | leading phase key c b =>
    rw [hpc] at hold
    obtain ⟨hc, cell, hcell, hrun⟩ := hold
    obtain ⟨cell', hcell', hgrow⟩ := h.heap_grows hinv hcell
    exact ⟨(h.calls_other hinv hq hpc).trans hc, cell', hcell', hgrow.2.1.trans hrun⟩
  | returned key c b val fresh err =>
    rw [hpc] at hold
    obtain ⟨cell, hcell, hkey, hwg, hval, herr, hfresh⟩ := hold
    obtain ⟨cell', hcell', hgk, hgr, hgw⟩ := h.heap_grows hinv hcell
    obtain ⟨hw, hv, he⟩ := hgw hwg
    exact ⟨cell', hcell', hgk.trans hkey, hw, hv.trans hval, he.trans herr, by rw [hgr, hfresh]⟩

/-- The acting caller holds what its new position says. -/
theorem SharedCalls.Step.holds_actor (h : s.Step l s') (hinv : s.Inv) :
    s'.Holds l.actor (s'.pc l.actor) := by
  cases h with
  | invoke => simp only [Label.actor, move_pc_self, SharedCalls.Holds]
  | @join p key b c hp hc =>
    obtain ⟨cell, phase, began, hcell, hpc⟩ := hinv.entry key c hc
    obtain ⟨_, cell', hcell', _, hkey, _⟩ := hinv.leading hpc
    simp only [Label.actor, move_pc_self, SharedCalls.Holds, move_heap]
    exact ⟨cell', hcell', hkey⟩
  | @lead p key b hp hnone =>
    simp only [Label.actor, move_pc_self, SharedCalls.Holds, move_heap,
      move_calls]
    exact ⟨s.allocate_calls_self p key, _, s.allocate_heap_self p key, rfl⟩
  | @advance p key c b cell new ph ph' _ hp hc hadv =>
    obtain ⟨hcalls, cell', hcell', hrun, _, hm⟩ := hinv.leading hp
    obtain rfl : cell = cell' := Option.some.inj (hc.symm.trans hcell')
    simp only [hadv.actor, move_pc_self, SharedCalls.Holds, move_heap,
      move_calls]
    exact ⟨hcalls, new, s.store_heap_self c _, (hadv.matches hm).2.2.1.trans hrun⟩
  | @delete p key c b cell hp hc =>
    obtain ⟨_, cell', hcell', hrun, hkey, hm⟩ := hinv.leading hp
    obtain rfl : cell = cell' := Option.some.inj (hc.symm.trans hcell')
    simp only [Label.actor, move_pc_self, SharedCalls.Holds, move_heap]
    exact ⟨cell, hc, hkey, hm.1, rfl, rfl, by simp [hrun]⟩
  | @wake p key c b cell hp hc hz =>
    have hold := hinv.holds p
    rw [hp] at hold
    obtain ⟨cell', hcell', hkey⟩ := hold
    obtain rfl : cell = cell' := Option.some.inj (hc.symm.trans hcell')
    have hne : cell.runner ≠ p := hinv.not_runner hc hp id
    simp only [Label.actor, move_pc_self, SharedCalls.Holds, move_heap]
    exact ⟨cell, hc, hkey, hz, rfl, rfl, by simp [hne]⟩

/-- A call run by the actor agrees with the actor's new position. -/
theorem SharedCalls.Step.run_actor (h : s.Step l s') (hinv : s.Inv) {c : Nat}
    (hc : s'.heap c = some cell) (hr : cell.runner = l.actor) : cell.RunBy c (s'.pc l.actor) := by
  cases h with
  | @invoke p key hp => exact absurd hr (hinv.not_runner hc hp id)
  | @join p key b d hp hd => exact absurd hr (hinv.not_runner hc hp id)
  | @lead p key b hp hnone =>
    by_cases he : c = s.next
    · subst he
      obtain rfl := Option.some.inj (hc.symm.trans (s.allocate_heap_self _ _))
      simp only [Label.actor, move_pc_self]
      exact ⟨rfl, rfl, rfl, rfl⟩
    · have hold := (s.allocate_heap_of_ne _ _ he).symm.trans hc
      exact absurd hr (hinv.not_runner hold hp id)
  | @advance p key d b old new ph ph' _ hp hd hadv =>
    obtain ⟨_, cell', hcell', hrun, hkey, hm⟩ := hinv.leading hp
    obtain rfl : old = cell' := Option.some.inj (hd.symm.trans hcell')
    rw [hadv.actor] at hr
    have he : c = d := by
      by_contra hne
      exact hne (hinv.runner_address hp ((s.store_heap_of_ne _ hne).symm.trans hc) hr)
    subst he
    obtain rfl := Option.some.inj (hc.symm.trans (s.store_heap_self _ _))
    rw [hadv.actor, move_pc_self]
    exact ⟨rfl, hkey.symm.trans (hadv.matches hm).2.1.symm, (hadv.matches hm).1⟩
  | @delete p key d b old hp hd =>
    obtain ⟨_, cell', hcell', hrun, hkey, hm⟩ := hinv.leading hp
    obtain rfl := hinv.runner_address hp hc hr
    obtain rfl : cell = cell' := Option.some.inj (hc.symm.trans hcell')
    simp only [Label.actor, move_pc_self]
    exact ⟨rfl, hkey.symm, rfl, hm⟩
  | @wake p key d b old hp hd hz => exact absurd hr (hinv.not_runner hc hp id)

/-- Map entries stay led by the runners of their calls. -/
theorem SharedCalls.Step.entry (h : s.Step l s') (hinv : s.Inv) {key : Key} {c : Nat}
    (hc : s'.calls key = some c) :
    ∃ cell phase began, s'.heap c = some cell ∧
      s'.pc cell.runner = .leading phase key c began := by
  have hkeep : s.calls key = some c → (∀ cell ph b, s.heap c = some cell →
      cell.runner = l.actor → s.pc l.actor = .leading ph key c b →
      ∃ ph' b', s'.pc l.actor = .leading ph' key c b') →
      ∃ cell phase began, s'.heap c = some cell ∧
        s'.pc cell.runner = .leading phase key c began := by
    intro hold hactor
    obtain ⟨cell, ph, b, hcell, hpc⟩ := hinv.entry key c hold
    obtain ⟨cell', hcell', hgrow⟩ := h.heap_grows hinv hcell
    by_cases hr : cell.runner = l.actor
    · obtain ⟨ph', b', hpc'⟩ := hactor cell ph b hcell hr (hr ▸ hpc)
      exact ⟨cell', ph', b', hcell', by rw [hgrow.2.1, hr, hpc']⟩
    · exact ⟨cell', ph, b, hcell', by rw [hgrow.2.1, h.pc_other hr, hpc]⟩
  cases h with
  | @invoke p k hp =>
    exact hkeep hc fun _ _ _ _ _ hpc => absurd (hp.symm.trans hpc) (by simp)
  | @join p k b d hp hd =>
    exact hkeep hc fun _ _ _ _ _ hpc => absurd (hp.symm.trans hpc) (by simp)
  | @lead p k b hp hnone =>
    by_cases he : key = k
    · subst he
      obtain rfl := Option.some.inj (hc.symm.trans (s.allocate_calls_self p key))
      exact ⟨_, .running, b, s.allocate_heap_self p key, move_pc_self _ _ _⟩
    · exact hkeep ((s.allocate_calls_of_ne p he).symm.trans hc)
        fun _ _ _ _ _ hpc => absurd (hp.symm.trans hpc) (by simp)
  | @advance p k d b old new ph ph' _ hp hd hadv =>
    refine hkeep hc fun _ _ _ _ _ hpc => ?_
    rw [hadv.actor] at hpc ⊢
    have he := hp.symm.trans hpc
    simp only [Pc.leading.injEq] at he
    obtain ⟨_, rfl, rfl, _⟩ := he
    exact ⟨ph', b, move_pc_self _ _ _⟩
  | @delete p k d b old hp hd =>
    have hne : key ≠ k := by
      rintro rfl
      rw [move_calls, deleteKey_calls_self] at hc
      cases hc
    refine hkeep ((s.deleteKey_calls_of_ne hne).symm.trans hc) fun _ _ _ _ _ hpc => ?_
    have he := hp.symm.trans hpc
    simp only [Pc.leading.injEq] at he
    exact absurd he.2.1.symm hne
  | @wake p k d b old hp hd hz =>
    exact hkeep hc fun _ _ _ _ _ hpc => absurd (hp.symm.trans hpc) (by simp)

/-- Addresses beyond the allocated ones stay unused. -/
theorem SharedCalls.Step.unused (h : s.Step l s') (hinv : s.Inv) {c : Nat} (hc : s'.next ≤ c) :
    s'.heap c = none := by
  cases h with
  | invoke | join | delete | wake => exact hinv.unused c hc
  | lead =>
    change s.next + 1 ≤ c at hc
    have hne : c ≠ s.next := by omega
    exact (s.allocate_heap_of_ne _ _ hne).trans (hinv.unused c (by omega))
  | @advance p key d b old new ph ph' _ hp hd hadv =>
    have hne : c ≠ d := by
      rintro rfl
      rw [hinv.unused c hc] at hd
      cases hd
    exact (s.store_heap_of_ne _ hne).trans (hinv.unused c hc)

/-- Every step of every caller preserves ownership. -/
theorem SharedCalls.Step.inv (h : s.Step l s') (hinv : s.Inv) : s'.Inv where
  unused _ hc := h.unused hinv hc
  run c cell hc := by
    by_cases hr : cell.runner = l.actor
    · rw [hr]
      exact h.run_actor hinv hc hr
    · rw [h.pc_other hr]
      exact hinv.run c cell (h.heap_other hinv hc hr)
  entry _ _ hc := h.entry hinv hc
  holds p := by
    by_cases hp : p = l.actor
    · rw [hp]
      exact h.holds_actor hinv
    · exact h.holds_other hinv hp

/-- Ownership holds at the end of every run. -/
theorem sharedCalls_run_inv {ls : List (Label Pid Key V E)}
    (h : (sharedCallsSystem Pid Key V E).run newSharedCalls ls = some s) : s.Inv :=
  (sharedCallsSystem Pid Key V E).run_invariant
    (fun _ _ _ hinv hstep => (step_cases hstep).inv hinv) newSharedCalls_inv h

/-- Ownership holds in every reachable state. -/
theorem sharedCalls_reachable_inv (h : (sharedCallsSystem Pid Key V E).Reachable s) : s.Inv := by
  obtain ⟨_, _, rfl, hrun⟩ := h
  exact sharedCalls_run_inv hrun

end Stardust.Syncx
