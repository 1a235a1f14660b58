import Mathlib.Data.List.Nodup
import Stardust.Core.Once

/-!
# Stopping a group of services

`ServiceGroup.Stop` stops the services in the reverse order of their addition, once for any number
of calls. A `CleanupService` runs its cleanups and then closes its closers, both in reverse order
too. A panic leaves the loops with the guard used up: the services that were still to be stopped
run on, and every later call of `Stop` returns as if all had been stopped.
-/

namespace Stardust.ServiceGroup

open Stardust.Core

section Loop

variable {α β : Type*} (f : Nat → α → List β) (xs : List α)

/-- What a loop from the last index down to the first one does. -/
def reverseLoop : List β := xs.zipIdx.reverse.flatMap fun (x, i) => f i x

variable {f xs}

private theorem mem_reverseLoop {b : β} :
    b ∈ reverseLoop f xs ↔ ∃ i x, xs[i]? = some x ∧ b ∈ f i x := by
  simp only [reverseLoop, List.mem_flatMap, List.mem_reverse, Prod.exists,
    List.mem_zipIdx_iff_getElem?]
  exact exists_comm

private theorem map_reverseLoop {γ : Type*} (g : β → γ) :
    (reverseLoop f xs).map g = reverseLoop (fun i x => (f i x).map g) xs :=
  List.map_flatMap

/-- A loop that only looks at the indices. -/
theorem mem_reverseLoop_indices {g : Nat → β} {b : β} :
    b ∈ reverseLoop (fun i _ => [g i]) xs ↔ ∃ i < xs.length, b = g i := by
  rw [mem_reverseLoop]
  constructor
  · rintro ⟨i, x, hx, hb⟩
    exact ⟨i, (List.getElem?_eq_some_iff.mp hx).1, List.mem_singleton.mp hb⟩
  · rintro ⟨i, hi, rfl⟩
    exact ⟨i, xs[i], List.getElem?_eq_getElem hi, List.mem_singleton_self _⟩

/-- The loop is ordered when each turn is and higher indices come before lower ones. -/
theorem pairwise_reverseLoop {R : β → β → Prop}
    (hturn : ∀ i x, xs[i]? = some x → (f i x).Pairwise R)
    (hturns : ∀ i j x y, j < i → ∀ a ∈ f i x, ∀ b ∈ f j y, R a b) :
    (reverseLoop f xs).Pairwise R := by
  refine List.pairwise_flatMap.mpr ⟨fun p hp => ?_, ?_⟩
  · exact hturn p.2 p.1 (List.mem_zipIdx_iff_getElem?.mp (List.mem_reverse.mp hp))
  · have hindices : xs.zipIdx.Pairwise fun p q => p.2 < q.2 := by
      rw [← List.pairwise_map, List.zipIdx_map_snd]
      exact List.pairwise_lt_range'
    exact List.pairwise_reverse.mpr (hindices.imp fun hlt => hturns _ _ _ _ hlt)

private theorem pairwise_reverseLoop_indices {R : β → β → Prop} {g : Nat → β}
    (h : ∀ i j, j < i → R (g i) (g j)) : (reverseLoop (fun i _ => [g i]) xs).Pairwise R := by
  refine pairwise_reverseLoop (fun i x _ => List.pairwise_singleton ..) ?_
  intro i j _ _ hlt a ha b hb
  rw [List.mem_singleton.mp ha, List.mem_singleton.mp hb]
  exact h i j hlt

end Loop

/-- What `Close` of a closer comes to. -/
inductive Closing where
  | closed
  /-- The error is only logged. -/
  | failed (err : String)
  | panicked
  deriving DecidableEq, Repr

/-- What `cleanupService` stops. -/
structure CleanupService where
  closers : List Closing
  /-- Whether each of them panics. -/
  cleanups : List Bool
  deriving DecidableEq, Repr

/-- The services of a group. -/
inductive Service where
  | cleanup (c : CleanupService)
  /-- Any other service, and whether its `Stop` panics. -/
  | other (panics : Bool)
  deriving DecidableEq, Repr

/-- What is invoked on the way, by the places of the services, cleanups and closers in their
lists. -/
inductive Invocation where
  | stop (i : Nat)
  | cleanup (i j : Nat)
  | close (i j : Nat)
  deriving DecidableEq, Repr

/-- A call, and whether it panics. -/
structure Action where
  invocation : Invocation
  panics : Bool
  deriving DecidableEq, Repr

/-- The cleanups in reverse order, then the closers in reverse order. -/
def CleanupService.stop (c : CleanupService) (i : Nat) : List Action :=
  reverseLoop (fun j panics => [⟨.cleanup i j, panics⟩]) c.cleanups ++
    reverseLoop (fun j closing => [⟨.close i j, closing = .panicked⟩]) c.closers

/-- What stopping a service calls. -/
def Service.stop (i : Nat) : Service → List Action
  | .cleanup c => ⟨.stop i, false⟩ :: c.stop i
  | .other panics => [⟨.stop i, panics⟩]

variable (services : List Service)

/-- The function that `ServiceGroup.Stop` hands to `stopOnce`. It closes `stopCh` first, which
succeeds as it is done once. -/
def stopServices : List Action := reverseLoop Service.stop services

/-- Calls of `Stop` of a group. -/
def groupStop : System (Once.State Action) Once.Label :=
  Once.once (·.panics) (stopServices services)

namespace Invocation

/-- The place of the service. -/
def service : Invocation → Nat
  | stop i => i
  | cleanup i _ => i
  | close i _ => i

/-- A service is told to stop, runs its cleanups and closes its closers. -/
def turn : Invocation → Nat
  | stop _ => 0
  | cleanup _ _ => 1
  | close _ _ => 2

/-- The place among the cleanups or the closers. -/
def place : Invocation → Nat
  | stop _ => 0
  | cleanup _ j => j
  | close _ j => j

/-- What was added later comes before. -/
def Precedes (a b : Invocation) : Prop :=
  b.service < a.service ∨ a.service = b.service ∧
    (a.turn < b.turn ∨ a.turn = b.turn ∧ b.place < a.place)

private theorem Precedes.ne {a b : Invocation} (h : a.Precedes b) : a ≠ b := by
  rintro rfl
  unfold Precedes at h
  omega

/-- There is something to invoke. -/
def Present : Invocation → Prop
  | stop i => i < services.length
  | cleanup i j => ∃ c, services[i]? = some (.cleanup c) ∧ j < c.cleanups.length
  | close i j => ∃ c, services[i]? = some (.cleanup c) ∧ j < c.closers.length

end Invocation

/-- Everything there is has been invoked exactly once, what was added later before what was added
earlier. -/
def Reached (log : List Invocation) : Prop :=
  log.Pairwise Invocation.Precedes ∧ ∀ inv, inv ∈ log ↔ inv.Present services

section Plan

variable {c : CleanupService} {i : Nat} {inv : Invocation}

private theorem map_invocation_cleanup (c : CleanupService) (i : Nat) :
    (c.stop i).map (·.invocation) = reverseLoop (fun j _ => [.cleanup i j]) c.cleanups ++
      reverseLoop (fun j _ => [.close i j]) c.closers := by
  rw [CleanupService.stop, List.map_append, map_reverseLoop, map_reverseLoop]
  rfl

private theorem mem_cleanup_stop : inv ∈ (c.stop i).map (·.invocation) ↔
    (∃ j < c.cleanups.length, inv = .cleanup i j) ∨ ∃ j < c.closers.length, inv = .close i j := by
  rw [map_invocation_cleanup, List.mem_append, mem_reverseLoop_indices, mem_reverseLoop_indices]

private theorem pairwise_cleanup_stop (c : CleanupService) (i : Nat) :
    ((c.stop i).map (·.invocation)).Pairwise Invocation.Precedes := by
  rw [map_invocation_cleanup, List.pairwise_append]
  refine ⟨?_, ?_, fun a ha b hb => ?_⟩
  · exact pairwise_reverseLoop_indices fun j k hlt => .inr ⟨rfl, .inr ⟨rfl, hlt⟩⟩
  · exact pairwise_reverseLoop_indices fun j k hlt => .inr ⟨rfl, .inr ⟨rfl, hlt⟩⟩
  · obtain ⟨j, -, rfl⟩ := mem_reverseLoop_indices.mp ha
    obtain ⟨k, -, rfl⟩ := mem_reverseLoop_indices.mp hb
    exact .inr ⟨rfl, .inl (Nat.lt_succ_self 1)⟩

/-- The invocations of one service are about it. -/
theorem service_of_mem_stop {svc : Service} (h : inv ∈ (svc.stop i).map (·.invocation)) :
    inv.service = i := by
  cases svc with
  | other panics =>
    obtain rfl := List.mem_singleton.mp h
    rfl
  | cleanup c =>
    rcases List.mem_cons.mp h with rfl | h
    · rfl
    · rcases mem_cleanup_stop.mp h with ⟨j, -, rfl⟩ | ⟨j, -, rfl⟩ <;> rfl

private theorem pairwise_service_stop (svc : Service) (i : Nat) :
    ((svc.stop i).map (·.invocation)).Pairwise Invocation.Precedes := by
  cases svc with
  | other panics => exact List.pairwise_singleton ..
  | cleanup c =>
    refine List.pairwise_cons.mpr ⟨fun inv hinv => ?_, pairwise_cleanup_stop c i⟩
    rcases mem_cleanup_stop.mp hinv with ⟨j, -, rfl⟩ | ⟨j, -, rfl⟩
    · exact .inr ⟨rfl, .inl Nat.zero_lt_one⟩
    · exact .inr ⟨rfl, .inl Nat.zero_lt_two⟩

private theorem mem_stopServices {services : List Service} :
    inv ∈ (stopServices services).map (·.invocation) ↔
      ∃ (i : Nat) (svc : Service), services[i]? = some svc ∧
        inv ∈ (svc.stop i).map (·.invocation) := by
  rw [stopServices, map_reverseLoop, mem_reverseLoop]

/-- All that there is comes up in the function. -/
theorem mem_stopServices_iff :
    inv ∈ (stopServices services).map (·.invocation) ↔ inv.Present services := by
  rw [mem_stopServices]
  constructor
  · rintro ⟨i, svc, hsvc, hinv⟩
    cases svc with
    | other panics =>
      obtain rfl := List.mem_singleton.mp hinv
      exact (List.getElem?_eq_some_iff.mp hsvc).1
    | cleanup c =>
      rcases List.mem_cons.mp hinv with rfl | hinv
      · exact (List.getElem?_eq_some_iff.mp hsvc).1
      · rcases mem_cleanup_stop.mp hinv with ⟨j, hj, rfl⟩ | ⟨j, hj, rfl⟩
        · exact ⟨c, hsvc, hj⟩
        · exact ⟨c, hsvc, hj⟩
  · intro hpresent
    cases inv with
    | stop i =>
      refine ⟨i, services[i], List.getElem?_eq_getElem hpresent, ?_⟩
      cases services[i] <;> exact List.mem_cons_self ..
    | cleanup i j =>
      obtain ⟨c, hc, hj⟩ := hpresent
      exact ⟨i, _, hc, List.mem_cons_of_mem _ (mem_cleanup_stop.mpr (.inl ⟨j, hj, rfl⟩))⟩
    | close i j =>
      obtain ⟨c, hc, hj⟩ := hpresent
      exact ⟨i, _, hc, List.mem_cons_of_mem _ (mem_cleanup_stop.mpr (.inr ⟨j, hj, rfl⟩))⟩

private theorem pairwise_stopServices :
    ((stopServices services).map (·.invocation)).Pairwise Invocation.Precedes := by
  rw [stopServices, map_reverseLoop]
  refine pairwise_reverseLoop (fun i svc _ => pairwise_service_stop svc i) ?_
  intro i j x y hlt a ha b hb
  left
  rw [service_of_mem_stop ha, service_of_mem_stop hb]
  exact hlt

/-- The function reaches everything, and no part of it does. -/
theorem reached_iff_eq {services : List Service} {log : List Action}
    (h : log <+: stopServices services) :
    Reached services (log.map (·.invocation)) ↔ log = stopServices services := by
  obtain ⟨rest, hrest⟩ := h
  constructor
  · rintro ⟨-, hmem⟩
    cases rest with
    | nil => rw [← hrest, List.append_nil]
    | cons a rest =>
      have hall := pairwise_stopServices services
      have hpresent : a.invocation.Present services :=
        (mem_stopServices_iff services).mp (by rw [← hrest]; simp)
      rw [← hrest, List.map_append, List.pairwise_append] at hall
      have hprecedes := hall.2.2 _ ((hmem _).mpr hpresent) a.invocation (by simp)
      exact absurd rfl hprecedes.ne
  · rintro rfl
    exact ⟨pairwise_stopServices services, fun inv => mem_stopServices_iff services⟩

end Plan

/-- Whatever calls there are, nothing is invoked twice or out of order. Everything is invoked by
the time a call has come back exactly when nothing panics but possibly the very last that is
invoked. -/
theorem stop_reaches_all_iff :
    (∀ s, (groupStop services).Reachable s →
      (s.log.map (·.invocation)).Pairwise Invocation.Precedes) ∧
    ((∀ s, (groupStop services).Reachable s → ∀ c ∈ s.calls, c ≠ .entered →
        Reached services (s.log.map (·.invocation))) ↔
      ∀ a ∈ (stopServices services).dropLast, a.panics = false) := by
  have hinitial : ∀ s, (groupStop services).Reachable s → s.log <+: stopServices services :=
    fun s hs => (Once.log_initial hs).trans (Once.upToPanic_initial _ _)
  constructor
  · intro s hs
    exact (pairwise_stopServices services).sublist ((hinitial s hs).sublist.map _)
  · rw [← Once.forall_ended_iff]
    constructor
    · intro hall s hs c hc hended
      exact (reached_iff_eq (hinitial s hs)).mp (hall s hs c hc hended)
    · intro hall s hs c hc hended
      exact (reached_iff_eq (hinitial s hs)).mpr (hall s hs c hc hended)

/-- The service that was added last panics: the first one is never stopped, and another call
returns as if it had been. -/
theorem stop_skips_after_panic :
    ∃ s, (groupStop [.other false, .other true]).Reachable s ∧ s.calls = [.panicked, .returned] ∧
      s.log.map (·.invocation) = [.stop 1] ∧
      ¬ Reached [.other false, .other true] (s.log.map (·.invocation)) := by
  refine ⟨_, ⟨_, [.call, .enter 0, .act, .call, .join 1], rfl, rfl⟩, rfl, rfl, ?_⟩
  rintro ⟨-, hmem⟩
  have hstop : Invocation.Present [.other false, .other true] (.stop 0) :=
    Nat.zero_lt_two
  exact absurd ((hmem _).mpr hstop) (by decide)

end Stardust.ServiceGroup
