import Stardust.Syncx.Provenance

/-!
# Freshness of shared results

The map entry outlives the execution: it is removed by a second critical section
after `wg.Done`. A caller that enters and looks up inside that window joins an
execution that had already finished. Outside it, every result a caller receives is
younger than its own invocation.
-/

namespace Stardust.Syncx

open SharedCalls

variable {Pid Key V E : Type*}

/-- The step at which the caller was invoked. -/
def Pc.began : Pc Key V E → Option Nat
  | .idle => none
  | .entered _ b | .waiting _ _ b | .leading _ _ _ b | .returned _ _ b _ _ _ => some b

/-- The address of the call whose result the caller gets or got. -/
def Pc.target : Pc Key V E → Option Nat
  | .idle | .entered _ _ => none
  | .waiting _ c _ | .leading _ _ c _ | .returned _ c _ _ _ _ => some c

/-- The caller is about to look up a key whose entry was finished before it was invoked. -/
def SharedCalls.staleHit (s : SharedCalls Pid Key V E) (p : Pid) : Bool :=
  match s.pc p with
  | .entered key began =>
    match ((s.calls key).bind s.heap).bind Call.outcome with
    | some (.returned _ _ finishedAt) => decide (finishedAt < began)
    | _ => false
  | _ => false

/-- A step of the schedule is not a lookup with a stale hit. -/
def SharedCalls.AvoidsStaleHit (s : SharedCalls Pid Key V E) (l : Label Pid Key V E) : Prop :=
  ∀ p, l = .lookup p → s.staleHit p = false

instance (s : SharedCalls Pid Key V E) (l : Label Pid Key V E) : Decidable (s.AvoidsStaleHit l) :=
  match l with
  | .lookup p => decidable_of_iff (s.staleHit p = false) (by simp [SharedCalls.AvoidsStaleHit])
  | .invoke .. | .fnReturn .. | .fnPanic .. | .wgDone .. | .delete .. | .wake .. =>
    isTrue (by simp [SharedCalls.AvoidsStaleHit])

/-- Every returned result comes from an execution for the caller's key that was not
yet finished at the step that invoked the caller. -/
def SharedCalls.ResultsFresh (s : SharedCalls Pid Key V E) : Prop :=
  ∀ p key c began val fresh err, s.pc p = .returned key c began val fresh err →
    ∃ cell finishedAt, s.heap c = some cell ∧ cell.key = key ∧
      cell.outcome = some (.returned val err finishedAt) ∧ began ≤ finishedAt

/-- Invocations lie in the past, and targeted executions finish after them. -/
structure SharedCalls.Timely (s : SharedCalls Pid Key V E) : Prop where
  /-- Callers were invoked at earlier steps. -/
  past : ∀ p b, (s.pc p).began = some b → b < s.now
  /-- A finished execution ended after the invocation of every caller that targets it. -/
  later : ∀ p c b cell val err t, (s.pc p).target = some c → (s.pc p).began = some b →
    s.heap c = some cell → cell.outcome = some (.returned val err t) → b ≤ t

/-- Nothing has been invoked at the start. -/
theorem newSharedCalls_timely : (newSharedCalls : SharedCalls Pid Key V E).Timely where
  past _ _ h := by cases h
  later _ _ _ _ _ _ _ h := by cases h

/-- Ownership and timeliness make every returned result fresh. -/
theorem SharedCalls.Timely.resultsFresh {s : SharedCalls Pid Key V E} (htime : s.Timely)
    (hinv : s.Inv) : s.ResultsFresh := by
  intro p key c began val fresh err hp
  obtain ⟨cell, t, hcell, hkey, ho, _⟩ := hinv.returned hp
  refine ⟨cell, t, hcell, hkey, ho, ?_⟩
  apply htime.later p c began cell val err t _ _ hcell ho <;> rw [hp] <;> rfl

variable [DecidableEq Pid] [DecidableEq Key] {s s' : SharedCalls Pid Key V E}
  {l : Label Pid Key V E}

/-- A step either finds an execution finished already or finishes it now. -/
theorem SharedCalls.Step.outcome_cases (h : s.Step l s') {c : Nat} {cell : Call Pid Key V E}
    {val : Option V} {err : Option E} {t : Nat} (hc : s'.heap c = some cell)
    (ho : cell.outcome = some (.returned val err t)) :
    t = s.now ∨ ∃ old, s.heap c = some old ∧ old.outcome = some (.returned val err t) := by
  cases h with
  | invoke | join | delete | wake => exact Or.inr ⟨cell, hc, ho⟩
  | lead =>
    by_cases he : c = s.next
    · subst he
      obtain rfl := Option.some.inj (hc.symm.trans (s.allocate_heap_self _ _))
      cases ho
    · exact Or.inr ⟨cell, (s.allocate_heap_of_ne _ _ he).symm.trans hc, ho⟩
  | @advance p key d b old new ph ph' _ hp hd hadv =>
    by_cases he : c = d
    · subst he
      obtain rfl := Option.some.inj (hc.symm.trans (s.store_heap_self _ _))
      cases hadv with
      | fnReturn val' err' =>
        simp only [Option.some.injEq, Outcome.returned.injEq] at ho
        exact Or.inl ho.2.2.symm
      | fnPanic => cases ho
      | wgDone => exact Or.inr ⟨old, hd, ho⟩
    · exact Or.inr ⟨cell, (s.store_heap_of_ne _ he).symm.trans hc, ho⟩

/-- A step never changes when a caller was invoked, except by invoking it. -/
theorem SharedCalls.Step.began_cases (h : s.Step l s') {p : Pid} {b : Nat}
    (hb : (s'.pc p).began = some b) : b = s.now ∨ (s.pc p).began = some b := by
  by_cases hp : p = l.actor
  · subst hp
    cases h with
    | invoke h =>
      simp only [Label.actor, move_pc_self, Pc.began, Option.some.injEq] at hb
      exact Or.inl hb.symm
    | advance h _ hadv =>
      rw [hadv.actor, move_pc_self] at hb
      rw [hadv.actor, h]
      exact Or.inr hb
    | join h | lead h | delete h | wake h =>
      simp only [Label.actor, move_pc_self] at hb
      simp only [Label.actor, h]
      exact Or.inr hb
  · rw [h.pc_other hp] at hb
    exact Or.inr hb

/-- A step without a stale hit only targets executions that were targeted before by
the same invocation, or that are not over, or that ended after the invocation. -/
theorem SharedCalls.Step.target_cases (h : s.Step l s') (hinv : s.Inv)
    (hfresh : s.AvoidsStaleHit l) {p : Pid} {c b : Nat} (hc : (s'.pc p).target = some c)
    (hb : (s'.pc p).began = some b) :
    ((s.pc p).target = some c ∧ (s.pc p).began = some b) ∨
      ∀ cell val err t, s.heap c = some cell → cell.outcome = some (.returned val err t) →
        b ≤ t := by
  by_cases hp : p = l.actor
  · subst hp
    cases h with
    | invoke h => simp only [Label.actor, move_pc_self, Pc.target, reduceCtorEq] at hc
    | @join q key began d hq hd =>
      simp only [Label.actor, move_pc_self, Pc.target, Pc.began,
        Option.some.injEq] at hc hb
      subst hc hb
      refine Or.inr fun cell val err t hcell ho => ?_
      have hf := hfresh q rfl
      simp only [staleHit, hq, hd, Option.bind_some, hcell, ho,
        decide_eq_false_iff_not] at hf
      omega
    | @lead q key began hq hnone =>
      simp only [Label.actor, move_pc_self, Pc.target, Option.some.injEq] at hc
      subst hc
      refine Or.inr fun cell val err t hcell _ => ?_
      rw [hinv.unused _ (Nat.le_refl _)] at hcell
      cases hcell
    | advance h _ hadv =>
      rw [hadv.actor, move_pc_self] at hc hb
      rw [hadv.actor, h]
      exact Or.inl ⟨hc, hb⟩
    | delete h | wake h =>
      simp only [Label.actor, move_pc_self] at hc hb
      simp only [Label.actor, h]
      exact Or.inl ⟨hc, hb⟩
  · rw [h.pc_other hp] at hc hb
    exact Or.inl ⟨hc, hb⟩

/-- A step without a stale hit keeps every targeted execution younger than its callers. -/
theorem SharedCalls.Timely.step (htime : s.Timely) (hinv : s.Inv) (hfresh : s.AvoidsStaleHit l)
    (h : s.Step l s') : s'.Timely := by
  have hnow : s'.now = s.now + 1 := by cases h <;> rfl
  constructor
  · intro p b hb
    rw [hnow]
    rcases h.began_cases hb with rfl | hold
    · exact Nat.lt_succ_self _
    · exact Nat.lt_succ_of_lt (htime.past p b hold)
  · intro p c b cell val err t hc hb hcell ho
    rcases h.outcome_cases hcell ho with rfl | ⟨old, hold, hout⟩
    · rcases h.began_cases hb with rfl | hbold
      · exact Nat.le_refl _
      · exact Nat.le_of_lt (htime.past p b hbold)
    · rcases h.target_cases hinv hfresh hc hb with ⟨hct, hbt⟩ | hlater
      · exact htime.later p c b old val err t hct hbt hold hout
      · exact hlater old val err t hold hout

/-- In every run in which no caller enters and looks up between the end of an execution
for its key and the removal of its entry, every result is fresh. -/
theorem doEx_results_fresh_without_stale_hit {ls : List (Label Pid Key V E)}
    (hguard : (sharedCallsSystem Pid Key V E).Guarded SharedCalls.AvoidsStaleHit
      newSharedCalls ls)
    (hrun : (sharedCallsSystem Pid Key V E).run newSharedCalls ls = some s) :
    s.ResultsFresh := by
  have hboth : s.Inv ∧ s.Timely := by
    refine (sharedCallsSystem Pid Key V E).run_guarded (P := fun t => t.Inv ∧ t.Timely) ?_
      ⟨newSharedCalls_inv, newSharedCalls_timely⟩ hguard hrun
    intro t l t' ⟨hinv, htime⟩ hfresh hstep
    have hcases : t.Step l t' := step_cases hstep
    exact ⟨hcases.inv hinv, htime.step hinv hfresh hcases⟩
  exact hboth.2.resultsFresh hboth.1

/-- A waiter that joins while `fn` runs is not a stale hit. -/
theorem doEx_joined_result_fresh :
    ∃ s : SharedCalls Nat Unit Nat Unit, (sharedCallsSystem Nat Unit Nat Unit).run newSharedCalls
      [.invoke 0 (), .lookup 0, .invoke 1 (), .lookup 1, .fnReturn 0 (some 7) none, .wgDone 0,
        .wake 1] = some s ∧ s.ResultsFresh := by
  obtain ⟨s, hs⟩ := Option.isSome_iff_exists.mp (show ((sharedCallsSystem Nat Unit Nat Unit).run
    newSharedCalls [.invoke 0 (), .lookup 0, .invoke 1 (), .lookup 1, .fnReturn 0 (some 7) none,
      .wgDone 0, .wake 1]).isSome by decide)
  exact ⟨s, hs, doEx_results_fresh_without_stale_hit (by decide) hs⟩

/-- A caller invoked after `wg.Done` and before the delete gets the finished result. -/
theorem doEx_stale_result :
    ∃ s : SharedCalls Nat Unit Nat Unit, (sharedCallsSystem Nat Unit Nat Unit).run newSharedCalls
      [.invoke 0 (), .lookup 0, .fnReturn 0 (some 7) none, .wgDone 0, .invoke 1 (), .lookup 1,
        .wake 1] = some s ∧ ¬ s.ResultsFresh := by
  obtain ⟨s, hs⟩ := Option.isSome_iff_exists.mp (show ((sharedCallsSystem Nat Unit Nat Unit).run
    newSharedCalls [.invoke 0 (), .lookup 0, .fnReturn 0 (some 7) none, .wgDone 0, .invoke 1 (),
      .lookup 1, .wake 1]).isSome by decide)
  have hlate : s.pc 1 = .returned () 0 4 (some 7) false none := by
    cases hs
    rfl
  have hcell : s.heap 0 = some ⟨0, some 7, none, (), 0, some (.returned (some 7) none 2)⟩ := by
    cases hs
    rfl
  refine ⟨s, hs, fun hfresh => ?_⟩
  obtain ⟨cell, t, hc, _, ho, hle⟩ := hfresh 1 () 0 4 (some 7) false none hlate
  obtain rfl := Option.some.inj (hcell.symm.trans hc)
  simp only [Option.some.injEq, Outcome.returned.injEq] at ho
  omega

end Stardust.Syncx
