import Stardust.Syncx.Invariant

/-!
# Exclusive executions and the calls that panics leave behind

Ownership of the map entries gives one execution per key and ties every returned
result to it. It also shows exactly what a panic costs: its entry is never removed
and its wait group never released, so the key is lost for every later caller.
-/

namespace Stardust.Syncx

open SharedCalls

variable {Pid Key V E : Type*}

/-- An execution for the key is in progress: entered in the map, `wg.Done` not called. -/
def Pc.Executing (key : Key) : Pc Key V E → Prop
  | .leading .running k _ _ | .leading .finished k _ _ => k = key
  | _ => False

/-- An executing caller leads a call for the key, and has not panicked. -/
theorem Pc.Executing.leading {key : Key} {pc : Pc Key V E} (h : pc.Executing key) :
    ∃ phase c began, pc = .leading phase key c began ∧ phase ≠ .panicked := by
  unfold Pc.Executing at h
  split at h
  · subst h
    exact ⟨_, _, _, rfl, by simp⟩
  · subst h
    exact ⟨_, _, _, rfl, by simp⟩
  · contradiction

variable {s : SharedCalls Pid Key V E}

/-- At most one execution is in progress for a key. -/
theorem SharedCalls.Inv.executing_unique (hinv : s.Inv) {key : Key} {p q : Pid}
    (hp : (s.pc p).Executing key) (hq : (s.pc q).Executing key) : p = q := by
  obtain ⟨_, _, _, hpc, _⟩ := hp.leading
  obtain ⟨_, _, _, hqc, _⟩ := hq.leading
  exact hinv.leader_unique hpc hqc

/-- A released call has the results of its own execution. -/
theorem SharedCalls.Inv.released (hinv : s.Inv) {c : Nat} {cell : Call Pid Key V E}
    (hc : s.heap c = some cell) (hz : cell.wg = 0) :
    ∃ t, cell.outcome = some (.returned cell.val cell.err t) := by
  have hrun := hinv.run c cell hc
  cases hpc : s.pc cell.runner with
  | leading phase key d b =>
    rw [hpc] at hrun
    obtain ⟨_, _, hm⟩ := hrun
    cases phase with
    | notified => exact hm.2
    | running | finished | panicked =>
      have hone := hm.1
      omega
  | returned key d b v f e =>
    rw [hpc] at hrun
    exact hrun.2.2.2.2
  | idle | entered | waiting =>
    rw [hpc] at hrun
    exact hrun.elim

/-- A returned result was produced by an execution for the caller's own key, and the
caller is told that it is fresh exactly when it ran that execution. -/
theorem SharedCalls.Inv.returned (hinv : s.Inv) {p : Pid} {key : Key} {c b : Nat} {val : Option V}
    {fresh : Bool} {err : Option E} (hp : s.pc p = .returned key c b val fresh err) :
    ∃ cell t, s.heap c = some cell ∧ cell.key = key ∧
      cell.outcome = some (.returned val err t) ∧ (fresh = true ↔ p = cell.runner) := by
  have hold := hinv.holds p
  rw [hp] at hold
  obtain ⟨cell, hcell, hkey, hz, rfl, rfl, hfresh⟩ := hold
  obtain ⟨t, ht⟩ := hinv.released hcell hz
  exact ⟨cell, t, hcell, hkey, ht, hfresh.trans eq_comm⟩

variable [DecidableEq Pid] [DecidableEq Key]

/-- Only the runner's own remaining steps separate a finished execution from the
return of its fresh result. -/
theorem SharedCalls.Inv.runner_returns (hinv : s.Inv) {c : Nat} {cell : Call Pid Key V E}
    {val : Option V} {err : Option E} {t : Nat} (hc : s.heap c = some cell)
    (ho : cell.outcome = some (.returned val err t)) :
    ∃ ls s', (∀ l ∈ ls, l.actor = cell.runner) ∧
      (sharedCallsSystem Pid Key V E).run s ls = some s' ∧
      ∃ key b, s'.pc cell.runner = .returned key c b val true err := by
  have hdelete : ∀ {u : SharedCalls Pid Key V E} {d : Call Pid Key V E} {key : Key} {b : Nat},
      u.pc cell.runner = .leading .notified key c b → u.heap c = some d → d.val = val →
      d.err = err → ∃ u', u.step (.delete cell.runner) = some u' ∧
        u'.pc cell.runner = .returned key c b val true err := by
    intro u d key b hpc hd hv he
    refine ⟨(u.deleteKey key).move cell.runner (.returned key c b d.val true d.err), ?_, ?_⟩
    · simp only [step, hpc, hd, Option.map_some]
    · rw [move_pc_self, hv, he]
  have hrun := hinv.run c cell hc
  cases hpc : s.pc cell.runner with
  | leading phase key d b =>
    rw [hpc] at hrun
    obtain ⟨rfl, _, hm⟩ := hrun
    cases phase with
    | running => simp [hm.2] at ho
    | panicked => simp [hm.2] at ho
    | finished =>
      obtain ⟨t', ht'⟩ := hm.2
      simp only [ht', Option.some.injEq, Outcome.returned.injEq] at ho
      obtain ⟨u, hu, hret⟩ := hdelete
        (u := (s.store d { cell with wg := cell.wg - 1 }).move cell.runner
          (.leading .notified key d b)) (move_pc_self _ _ _)
        (s.store_heap_self d _) ho.1 ho.2.1
      refine ⟨[.wgDone cell.runner, .delete cell.runner], u, by simp [Label.actor], ?_, key, b,
        hret⟩
      refine (Core.System.run_cons_iff _).mpr ⟨_, ?_, (Core.System.run_cons_iff _).mpr
        ⟨u, hu, rfl⟩⟩
      simp only [sharedCallsSystem, step, hpc, hc, Option.map_some]
    | notified =>
      obtain ⟨t', ht'⟩ := hm.2
      simp only [ht', Option.some.injEq, Outcome.returned.injEq] at ho
      obtain ⟨u, hu, hret⟩ := hdelete hpc hc ho.1 ho.2.1
      exact ⟨[.delete cell.runner], u, by simp [Label.actor],
        (Core.System.run_cons_iff _).mpr ⟨u, hu, rfl⟩, key, b, hret⟩
  | returned key d b v f e =>
    obtain ⟨cell', t', hcell', _, ho', _⟩ := hinv.returned hpc
    rw [hpc] at hrun
    obtain ⟨rfl, _, rfl, _⟩ := hrun
    obtain rfl : cell = cell' := Option.some.inj (hc.symm.trans hcell')
    rw [ho', Option.some.injEq, Outcome.returned.injEq] at ho
    obtain ⟨rfl, rfl, _⟩ := ho
    exact ⟨[], s, by simp, rfl, key, b, hpc⟩
  | idle | entered | waiting =>
    rw [hpc] at hrun
    exact hrun.elim

/-- In every reachable state at most one execution is in progress per key, every result is that of
one execution for the caller's own key, and exactly its runner is told that it is fresh, which the
runner's own steps bring about once `fn` has returned. -/
theorem doEx_exclusive_and_provenant (h : (sharedCallsSystem Pid Key V E).Reachable s) :
    (∀ key p q, (s.pc p).Executing key → (s.pc q).Executing key → p = q) ∧
    (∀ p key c b val fresh err, s.pc p = .returned key c b val fresh err →
      ∃ cell t, s.heap c = some cell ∧ cell.key = key ∧
        cell.outcome = some (.returned val err t) ∧ (fresh = true ↔ p = cell.runner)) ∧
    ∀ c cell val err t, s.heap c = some cell → cell.outcome = some (.returned val err t) →
      ∃ ls s', (∀ l ∈ ls, l.actor = cell.runner) ∧
        (sharedCallsSystem Pid Key V E).run s ls = some s' ∧
        ∃ key b, s'.pc cell.runner = .returned key c b val true err := by
  have hinv := sharedCalls_reachable_inv h
  refine ⟨fun key p q hp hq => hinv.executing_unique hp hq, ?_, ?_⟩
  · intro p key c b val fresh err hp
    exact hinv.returned hp
  · intro c cell val err t hc ho
    exact hinv.runner_returns hc ho

/-- A waiter shares the result of the only execution, and only its runner is fresh. -/
theorem doEx_shared_by_two :
    ∃ s : SharedCalls Nat Unit Nat Unit, s.pc 0 = .returned () 0 0 (some 7) true none ∧
      s.pc 1 = .returned () 0 2 (some 7) false none ∧
      ∃ cell t, s.heap 0 = some cell ∧ cell.key = () ∧
        cell.outcome = some (.returned (some 7) none t) ∧ (false = true ↔ 1 = cell.runner) := by
  obtain ⟨s, hs⟩ := Option.isSome_iff_exists.mp (show ((sharedCallsSystem Nat Unit Nat Unit).run
    newSharedCalls [.invoke 0 (), .lookup 0, .invoke 1 (), .lookup 1, .fnReturn 0 (some 7) none,
      .wgDone 0, .wake 1, .delete 0]).isSome by decide)
  have hzero : s.pc 0 = .returned () 0 0 (some 7) true none := by
    cases hs
    rfl
  have hone : s.pc 1 = .returned () 0 2 (some 7) false none := by
    cases hs
    rfl
  exact ⟨s, hzero, hone, (doEx_exclusive_and_provenant ⟨_, _, rfl, hs⟩).2.1 1 () 0 2 (some 7)
    false none hone⟩

/-- With no execution in progress for the key, the map holds no unreleased call for
it, and the next lookup either runs its own `fn` or joins a call already released. -/
def SharedCalls.CleanFor (s : SharedCalls Pid Key V E) (key : Key) : Prop :=
  (∀ p, ¬ (s.pc p).Executing key) →
    (∀ c cell, s.calls key = some c → s.heap c = some cell → cell.wg = 0) ∧
    ∀ p b s', s.pc p = .entered key b → s.step (.lookup p) = some s' →
      (∃ c, s'.pc p = .leading .running key c b) ∨
        ∃ c cell, s'.pc p = .waiting key c b ∧ s'.heap c = some cell ∧ cell.wg = 0

/-- Without a panicked leader every key is clean. -/
theorem SharedCalls.Inv.cleanFor (hinv : s.Inv)
    (hno : ∀ p key c b, s.pc p ≠ .leading .panicked key c b) (key : Key) : s.CleanFor key := by
  intro hidle
  have hreleased : ∀ c cell, s.calls key = some c → s.heap c = some cell → cell.wg = 0 := by
    intro c cell hc hcell
    obtain ⟨cell', phase, b, hcell', hpc⟩ := hinv.entry key c hc
    obtain rfl : cell = cell' := Option.some.inj (hcell.symm.trans hcell')
    obtain ⟨_, cell', hcell', _, _, hm⟩ := hinv.leading hpc
    obtain rfl : cell = cell' := Option.some.inj (hcell.symm.trans hcell')
    cases phase with
    | running => exact absurd (by rw [hpc]; rfl) (hidle cell.runner)
    | finished => exact absurd (by rw [hpc]; rfl) (hidle cell.runner)
    | notified => exact hm.1
    | panicked => exact absurd hpc (hno _ _ _ _)
  refine ⟨hreleased, ?_⟩
  intro p b s' hp hstep
  cases step_cases hstep with
  | @join _ k b' c hp' hc =>
    have he := hp.symm.trans hp'
    simp only [Pc.entered.injEq] at he
    obtain ⟨rfl, rfl⟩ := he
    obtain ⟨cell, _, _, hcell, _⟩ := hinv.entry _ c hc
    exact Or.inr ⟨c, cell, move_pc_self _ _ _, hcell, hreleased c cell hc hcell⟩
  | @lead _ k b' hp' hnone =>
    have he := hp.symm.trans hp'
    simp only [Pc.entered.injEq] at he
    obtain ⟨rfl, rfl⟩ := he
    exact Or.inl ⟨s.next, move_pc_self _ _ _⟩
  | advance _ _ hadv => cases hadv

/-- A panicked leader keeps its key unclean. -/
theorem SharedCalls.Inv.not_cleanFor (hinv : s.Inv) {p : Pid} {key : Key} {c b : Nat}
    (hp : s.pc p = .leading .panicked key c b) : ¬ s.CleanFor key := by
  intro hclean
  obtain ⟨hc, cell, hcell, _, _, hm⟩ := hinv.leading hp
  have hidle : ∀ q, ¬ (s.pc q).Executing key := by
    intro q hq
    obtain ⟨phase, d, b', hqc, hne⟩ := hq.leading
    obtain rfl := hinv.leader_unique hp hqc
    have he := hp.symm.trans hqc
    simp only [Pc.leading.injEq] at he
    exact hne he.1.symm
  have hz := (hclean hidle).1 c cell hc hcell
  have hone := hm.1
  omega

/-- A caller that left by a panic never moves again. -/
theorem SharedCalls.Step.panicked_stable {s s' : SharedCalls Pid Key V E} {l : Label Pid Key V E}
    (h : s.Step l s') {p : Pid} {key : Key} {c b : Nat}
    (hp : s.pc p = .leading .panicked key c b) : s'.pc p = .leading .panicked key c b := by
  by_cases hactor : p = l.actor
  · exfalso
    subst hactor
    cases h with
    | invoke h => simp only [Label.actor, h] at hp; cases hp
    | join h => simp only [Label.actor, h] at hp; cases hp
    | lead h => simp only [Label.actor, h] at hp; cases hp
    | advance h _ hadv =>
      rw [hadv.actor, h] at hp
      cases hp
      cases hadv
    | delete h => simp only [Label.actor, h] at hp; cases hp
    | wake h => simp only [Label.actor, h] at hp; cases hp
  · rw [h.pc_other hactor, hp]

/-- Only a panicking `fn` puts a caller into the panicked position. -/
theorem SharedCalls.Step.not_panicked {s s' : SharedCalls Pid Key V E} {l : Label Pid Key V E}
    (h : s.Step l s') (hl : ∀ p, l ≠ .fnPanic p)
    (hno : ∀ p key c b, s.pc p ≠ .leading .panicked key c b) (p : Pid) (key : Key) (c b : Nat) :
    s'.pc p ≠ .leading .panicked key c b := by
  by_cases hactor : p = l.actor
  · subst hactor
    cases h with
    | advance _ _ hadv =>
      rw [hadv.actor, move_pc_self]
      cases hadv with
      | fnPanic => exact absurd rfl (hl _)
      | fnReturn | wgDone => simp
    | _ => simp only [Label.actor, move_pc_self, ne_eq, reduceCtorEq,
        not_false_eq_true, Pc.leading.injEq, false_and]
  · rw [h.pc_other hactor]
    exact hno p key c b

/-- At the end of every run, all keys are clean exactly when no `fn` panicked in it. -/
theorem sharedCalls_clean_iff_no_panic {ls : List (Label Pid Key V E)}
    (hrun : (sharedCallsSystem Pid Key V E).run newSharedCalls ls = some s) :
    (∀ key, s.CleanFor key) ↔ ∀ p, .fnPanic p ∉ ls := by
  have hinv := sharedCalls_run_inv hrun
  constructor
  · intro hclean p hmem
    obtain ⟨_, _, t, t', _, hstep, hafter⟩ := Core.System.run_mem _ hmem hrun
    have hcases : t.Step (.fnPanic p) t' := step_cases hstep
    obtain ⟨key, c, b, hp⟩ : ∃ key c b, t'.pc p = .leading .panicked key c b := by
      cases hcases with
      | advance _ _ hadv =>
        cases hadv
        exact ⟨_, _, _, move_pc_self _ _ _⟩
    have hend := (sharedCallsSystem Pid Key V E).run_invariant
      (fun _ _ _ hp hstep => (step_cases hstep).panicked_stable hp) hp hafter
    exact hinv.not_cleanFor hend (hclean key)
  · intro hno
    have hguard : (sharedCallsSystem Pid Key V E).Guarded (fun _ l => ∀ p, l ≠ .fnPanic p)
        newSharedCalls ls := by
      refine Core.System.guarded_of_forall _ fun l hl _ p => ?_
      rintro rfl
      exact hno p hl
    have hstart : ∀ p key c b, (newSharedCalls : SharedCalls Pid Key V E).pc p ≠
        .leading .panicked key c b := by
      intro p key c b hp
      cases hp
    exact hinv.cleanFor ((sharedCallsSystem Pid Key V E).run_guarded
      (fun _ _ _ hs hl hstep => (step_cases hstep).not_panicked hl hs)
      hstart hguard hrun)

/-- A call that returns leaves every key clean. -/
theorem sharedCalls_clean_after_return :
    ∃ s : SharedCalls Nat Unit Nat Unit, (sharedCallsSystem Nat Unit Nat Unit).run newSharedCalls
      [.invoke 0 (), .lookup 0, .fnReturn 0 (some 7) none, .wgDone 0, .delete 0] = some s ∧
      ∀ key, s.CleanFor key := by
  obtain ⟨s, hs⟩ := Option.isSome_iff_exists.mp (show ((sharedCallsSystem Nat Unit Nat Unit).run
    newSharedCalls [.invoke 0 (), .lookup 0, .fnReturn 0 (some 7) none, .wgDone 0,
      .delete 0]).isSome by decide)
  exact ⟨s, hs, (sharedCalls_clean_iff_no_panic hs).mpr (by simp)⟩

/-- A single panic leaves an unreleased call in the map with nothing in progress. -/
theorem sharedCalls_unclean_after_panic :
    ∃ s : SharedCalls Nat Unit Nat Unit, (sharedCallsSystem Nat Unit Nat Unit).run newSharedCalls
      [.invoke 0 (), .lookup 0, .fnPanic 0] = some s ∧ ¬ s.CleanFor () := by
  obtain ⟨s, hs⟩ := Option.isSome_iff_exists.mp (show ((sharedCallsSystem Nat Unit Nat Unit).run
    newSharedCalls [.invoke 0 (), .lookup 0, .fnPanic 0]).isSome by decide)
  have hpanicked : s.pc 0 = .leading .panicked () 0 0 := by
    cases hs
    rfl
  exact ⟨s, hs, (sharedCalls_run_inv hs).not_cleanFor hpanicked⟩

end Stardust.Syncx
