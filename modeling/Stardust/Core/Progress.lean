import Stardust.Core.System
import Stardust.Core.Pool

/-!
# Measures that a run uses up

Where every step of some kind takes one off a measure, and no step adds to it, a run has no more
steps of that kind than the measure allows. Where from every state some step takes something off
it, or the work is done, some run gets it done.
-/

namespace Stardust.Core.System

variable {State Label : Type*} (sys : System State Label)

/-- The steps of a kind in a run are taken off the measure, as long as the invariant holds. -/
theorem run_countP_le {P : State → Prop} (measure : State → Nat) (kind : Label → Bool)
    (hstep : ∀ s l s', P s → sys.step s l = some s' → P s' ∧ weight kind l + measure s' ≤ measure s)
    {s s' : State} {ls : List Label} (hs : P s) (h : sys.run s ls = some s') :
    P s' ∧ ls.countP kind + measure s' ≤ measure s := by
  induction ls generalizing s with
  | nil =>
    cases h
    exact ⟨hs, by simp⟩
  | cons l ls ih =>
    obtain ⟨t, ht, hrest⟩ := sys.run_cons_iff.mp h
    obtain ⟨hP, hmeasure⟩ := hstep s l t hs ht
    obtain ⟨hP', hrun⟩ := ih hP hrest
    refine ⟨hP', ?_⟩
    have hcount : (l :: ls).countP kind = ls.countP kind + weight kind l := by
      rw [List.countP_cons, weight]
    omega

/-- By induction on the measure, which a step makes smaller as long as the work is not done. -/
theorem exists_run_of_measure {Done : State → Prop} (measure : State → Nat)
    (hstep : ∀ s, Done s ∨ ∃ l s', sys.step s l = some s' ∧ measure s' < measure s) (s : State) :
    ∃ ls s', sys.run s ls = some s' ∧ Done s' := by
  induction hn : measure s using Nat.strongRecOn generalizing s with
  | ind n ih =>
    rcases hstep s with hdone | ⟨l, t, ht, hless⟩
    · exact ⟨[], s, rfl, hdone⟩
    · obtain ⟨ls, s', hrun, hdone⟩ := ih _ (hn ▸ hless) t rfl
      exact ⟨l :: ls, s', sys.run_cons_iff.mpr ⟨t, ht, hrun⟩, hdone⟩

end Stardust.Core.System
