import Mathlib.Data.List.Basic

/-!
# Labelled systems and their runs

A system is an executable partial successor for each label. A disabled label has
no successor, so a concrete schedule can be replayed by evaluation and the same
equations carry the inductions over arbitrary schedules. A guard restricts the
state before a step together with its label; it never mentions the state after.
-/

namespace Stardust.Core

/-- A labelled system with explicit starting states and a partial successor. -/
structure System (State Label : Type*) where
  /-- The states in which a run may start. -/
  init : State → Prop
  /-- The successor under one label, absent when the label is disabled. -/
  step : State → Label → Option State

namespace System

variable {State Label : Type*} (sys : System State Label)

/-- Follow the labels in order, failing at the first disabled one. -/
def run : State → List Label → Option State
  | s, [] => some s
  | s, l :: ls => (sys.step s l).bind fun s' => run s' ls

/-- Every label of the schedule is offered in a state that meets the guard. -/
def Guarded (guard : State → Label → Prop) : State → List Label → Prop
  | _, [] => True
  | s, l :: ls => guard s l ∧ ∀ s', sys.step s l = some s' → Guarded guard s' ls

/-- A state is reachable when some schedule leads to it from a starting state. -/
def Reachable (s : State) : Prop := ∃ s₀ ls, sys.init s₀ ∧ sys.run s₀ ls = some s

@[simp] theorem run_nil (s : State) : sys.run s [] = some s := rfl

variable {ls : List Label} {s s' : State}

/-- A nonempty schedule exposes its first successor. -/
theorem run_cons_iff {l : Label} :
    sys.run s (l :: ls) = some s' ↔ ∃ t, sys.step s l = some t ∧ sys.run t ls = some s' := by
  simp only [run, Option.bind_eq_some_iff]

/-- Schedules compose through the state between them. -/
theorem run_append_iff {ls ls' : List Label} :
    sys.run s (ls ++ ls') = some s' ↔ ∃ t, sys.run s ls = some t ∧ sys.run t ls' = some s' := by
  induction ls generalizing s with
  | nil => simp
  | cons l ls ih =>
    simp only [List.cons_append, run_cons_iff, ih]
    constructor
    · rintro ⟨a, ha, t, ht, hs⟩
      exact ⟨t, ⟨a, ha, ht⟩, hs⟩
    · rintro ⟨t, ⟨a, ha, ht⟩, hs⟩
      exact ⟨a, ha, t, ht, hs⟩

/-- Every label of a schedule is taken somewhere along its run. -/
theorem run_mem {l : Label} (hl : l ∈ ls) (h : sys.run s ls = some s') :
    ∃ before after t t', sys.run s before = some t ∧ sys.step t l = some t' ∧
      sys.run t' after = some s' := by
  obtain ⟨before, after, rfl⟩ := List.append_of_mem hl
  obtain ⟨t, hbefore, hrest⟩ := sys.run_append_iff.mp h
  obtain ⟨t', hstep, hafter⟩ := sys.run_cons_iff.mp hrest
  exact ⟨before, after, t, t', hbefore, hstep, hafter⟩

variable {guard : State → Label → Prop}

/-- A guard that only looks at the labels is checked label by label. -/
theorem guarded_of_forall {s : State} (h : ∀ l ∈ ls, ∀ t, guard t l) : sys.Guarded guard s ls := by
  induction ls generalizing s with
  | nil => trivial
  | cons l ls ih =>
    refine ⟨h l (List.mem_cons_self ..) s, fun t _ => ?_⟩
    exact ih fun l' hl' => h l' (List.mem_cons_of_mem _ hl')

/-- Guardedness of a concrete schedule is evaluated along its only run. -/
instance decidableGuarded (guard : State → Label → Prop) [∀ s l, Decidable (guard s l)] :
    ∀ s ls, Decidable (sys.Guarded guard s ls)
  | _, [] => isTrue trivial
  | s, l :: ls =>
    match h : sys.step s l with
    | none => decidable_of_iff (guard s l) (by simp [Guarded, h])
    | some t =>
      have := decidableGuarded guard t ls
      decidable_of_iff (guard s l ∧ sys.Guarded guard t ls) (by simp [Guarded, h])

/-- What every guarded step preserves holds at the end of every guarded run. -/
theorem run_guarded {P : State → Prop}
    (hstep : ∀ s l s', P s → guard s l → sys.step s l = some s' → P s') (hs : P s)
    (hg : sys.Guarded guard s ls) (h : sys.run s ls = some s') : P s' := by
  induction ls generalizing s with
  | nil => cases h; exact hs
  | cons l ls ih =>
    obtain ⟨t, ht, hrest⟩ := sys.run_cons_iff.mp h
    exact ih (hstep s l t hs hg.1 ht) (hg.2 t ht) hrest

/-- What every step preserves holds at the end of every run. -/
theorem run_invariant {P : State → Prop} (hstep : ∀ s l s', P s → sys.step s l = some s' → P s')
    (hs : P s) (h : sys.run s ls = some s') : P s' := by
  have hg : sys.Guarded (fun _ _ => True) s ls := sys.guarded_of_forall fun _ _ _ => trivial
  exact sys.run_guarded (fun s l s' hs _ => hstep s l s' hs) hs hg h

/-- When a guard decides about every step whether a property survives it, the property holds in
all states of a run exactly when the run is guarded. -/
theorem forall_states_iff_guarded {I P : State → Prop}
    (hinv : ∀ s l s', I s → sys.step s l = some s' → I s')
    (hstep : ∀ s l s', I s → P s → sys.step s l = some s' → (P s' ↔ guard s l)) (hi : I s)
    (hp : P s) (h : sys.run s ls = some s') :
    (∀ before after t, ls = before ++ after → sys.run s before = some t → P t) ↔
      sys.Guarded guard s ls := by
  induction ls generalizing s with
  | nil =>
    refine ⟨fun _ => trivial, fun _ before after t heq hrun => ?_⟩
    rw [(List.append_eq_nil_iff.mp heq.symm).1] at hrun
    cases hrun
    exact hp
  | cons l ls ih =>
    obtain ⟨t, ht, hrest⟩ := sys.run_cons_iff.mp h
    have hfirst := hstep s l t hi hp ht
    constructor
    · intro hall
      have hpt : P t := hall [l] ls t rfl (sys.run_cons_iff.mpr ⟨t, ht, rfl⟩)
      refine ⟨hfirst.mp hpt, fun t' ht' => ?_⟩
      rw [ht] at ht'
      cases ht'
      apply (ih (hinv s l t hi ht) hpt hrest).mp
      intro before after u heq hrun
      exact hall (l :: before) after u (by rw [heq]; rfl) (sys.run_cons_iff.mpr ⟨t, ht, hrun⟩)
    · rintro ⟨hguard, hguards⟩ before after u heq hrun
      have hpt := hfirst.mpr hguard
      cases before with
      | nil =>
        cases hrun
        exact hp
      | cons l' before =>
        rw [List.cons_append, List.cons.injEq] at heq
        obtain ⟨rfl, heq⟩ := heq
        obtain ⟨t', ht', hrun⟩ := sys.run_cons_iff.mp hrun
        rw [ht] at ht'
        cases ht'
        exact (ih (hinv s l t hi ht) hpt hrest).mpr (hguards t ht) before after u heq hrun

/-- When a guard decides about every step whether a property survives it, and a lost property
never comes back, the property holds at the end of a run exactly when the run is guarded. -/
theorem final_iff_guarded {I P : State → Prop}
    (hinv : ∀ s l s', I s → sys.step s l = some s' → I s')
    (hstep : ∀ s l s', I s → P s → sys.step s l = some s' → (P s' ↔ guard s l))
    (hlost : ∀ s l s', I s → ¬ P s → sys.step s l = some s' → ¬ P s') (hi : I s) (hp : P s)
    (h : sys.run s ls = some s') : P s' ↔ sys.Guarded guard s ls := by
  induction ls generalizing s with
  | nil =>
    cases h
    exact iff_of_true hp trivial
  | cons l ls ih =>
    obtain ⟨t, ht, hrest⟩ := sys.run_cons_iff.mp h
    have hit := hinv s l t hi ht
    have hfirst := hstep s l t hi hp ht
    by_cases hpt : P t
    · rw [ih hit hpt hrest]
      refine ⟨fun hg => ⟨hfirst.mp hpt, fun t' ht' => ?_⟩, fun hg => hg.2 t ht⟩
      rw [ht] at ht'
      cases ht'
      exact hg
    · have hend : ¬ P s' := (sys.run_invariant (P := fun u => I u ∧ ¬ P u)
        (fun u l u' hu hstep' => ⟨hinv u l u' hu.1 hstep', hlost u l u' hu.1 hu.2 hstep'⟩)
        ⟨hit, hpt⟩ hrest).2
      exact iff_of_false hend fun hg => hpt (hfirst.mpr hg.1)

/-- A step from a reachable state leads to a reachable state. -/
theorem Reachable.step {sys : System State Label} {l : Label} (h : sys.Reachable s)
    (hstep : sys.step s l = some s') : sys.Reachable s' := by
  obtain ⟨s₀, ls, h₀, hrun⟩ := h
  refine ⟨s₀, ls ++ [l], h₀, (sys.run_append_iff).mpr ⟨s, hrun, ?_⟩⟩
  exact (sys.run_cons_iff).mpr ⟨s', hstep, rfl⟩

/-- An inductive invariant of the starting states holds in every reachable state. -/
theorem Reachable.invariant {sys : System State Label} {P : State → Prop}
    (hinit : ∀ s, sys.init s → P s)
    (hstep : ∀ s l s', P s → sys.step s l = some s' → P s')
    {s : State} (h : sys.Reachable s) : P s := by
  obtain ⟨s₀, ls, h₀, hrun⟩ := h
  exact sys.run_invariant hstep (hinit s₀ h₀) hrun

/-- Where every step is a run of another system, which uses up what the label brings, so is every
run. -/
theorem run_simulated {State' Label' α : Type*} {sys' : System State' Label'}
    {view : State → List α → State'} {brings : Label → List α} {P : Label → Prop}
    (hstep : ∀ s l s' rest, P l → sys.step s l = some s' →
      ∃ ls', sys'.run (view s (brings l ++ rest)) ls' = some (view s' rest))
    (hls : ∀ l ∈ ls, P l) (h : sys.run s ls = some s') (rest : List α) :
    ∃ ls', sys'.run (view s (ls.flatMap brings ++ rest)) ls' = some (view s' rest) := by
  induction ls generalizing s with
  | nil =>
    cases h
    exact ⟨[], rfl⟩
  | cons l ls ih =>
    obtain ⟨t, ht, hrest⟩ := sys.run_cons_iff.mp h
    obtain ⟨first, hfirst⟩ := hstep s l t (ls.flatMap brings ++ rest)
      (hls l (List.mem_cons_self ..)) ht
    obtain ⟨others, hothers⟩ := ih (fun l' hl' => hls l' (List.mem_cons_of_mem _ hl')) hrest
    refine ⟨first ++ others, sys'.run_append_iff.mpr ⟨_, ?_, hothers⟩⟩
    rw [List.flatMap_cons, List.append_assoc]
    exact hfirst

end System

end Stardust.Core
