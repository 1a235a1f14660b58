import Mathlib.Data.List.Nodup
import Stardust.Nats.Subscriptions

/-!
# Stopping all subscriptions

`StopAllSubscriptions` unsubscribes what the connection has recorded, one after the other, and
clears the record only at the very end. After an error in the middle the record still begins with
subscriptions that are already unsubscribed, and at those every later call fails.
-/

namespace Stardust.Nats

/-- The subscriptions that a connection has recorded. -/
structure Recorded where
  subject : List Subscription
  /-- The numbers of those that were unsubscribed. -/
  closed : List Nat
  deriving DecidableEq

/-- The loop over the record up to the first error, with the errors that the requests run into. -/
def unsubscribeAll (faults : Nat → Option String) :
    List Subscription → List Nat → Option String × List Nat
  | [], closed => (none, closed)
  | sub :: subs, closed =>
    match unsubscribe closed (faults 0) sub with
    | (some err, closed') => (some err, closed')
    | (none, closed') => unsubscribeAll (fun i => faults (i + 1)) subs closed'

/-- The record is cleared only when all went well. -/
def Recorded.stopAllSubscriptions (s : Recorded) (faults : Nat → Option String) :
    Option String × Recorded :=
  match unsubscribeAll faults s.subject s.closed with
  | (some err, closed) => (some err, { s with closed := closed })
  | (none, closed) => (none, ⟨[], closed⟩)

section Loop

variable {faults : Nat → Option String} {sub : Subscription} {subs : List Subscription}
  {closed : List Nat}

private theorem unsubscribeAll_cons_of_live (hlive : sub.id ∉ closed) (hfault : faults 0 = none) :
    unsubscribeAll faults (sub :: subs) closed =
      unsubscribeAll (fun i => faults (i + 1)) subs (sub.id :: closed) := by
  simp [unsubscribeAll, unsubscribe, hlive, hfault]

private theorem unsubscribeAll_cons_of_error (h : sub.id ∈ closed ∨ faults 0 ≠ none) :
    (unsubscribeAll faults (sub :: subs) closed).1 ≠ none ∧
      (unsubscribeAll faults (sub :: subs) closed).2 = closed := by
  unfold unsubscribeAll unsubscribe
  by_cases hclosed : sub.id ∈ closed
  · simp [hclosed]
  · cases hfault : faults 0 with
    | none => exact absurd hfault (h.resolve_left hclosed)
    | some err => simp [hclosed]

/-- Nothing that was unsubscribed comes back. -/
theorem subset_unsubscribeAll (faults : Nat → Option String) (subs : List Subscription)
    (closed : List Nat) : closed ⊆ (unsubscribeAll faults subs closed).2 := by
  induction subs generalizing faults closed with
  | nil => exact List.Subset.refl _
  | cons sub subs ih =>
    by_cases h : sub.id ∈ closed ∨ faults 0 ≠ none
    · rw [(unsubscribeAll_cons_of_error h).2]
      exact List.Subset.refl _
    · push Not at h
      rw [unsubscribeAll_cons_of_live h.1 h.2]
      exact List.Subset.trans (List.subset_cons_self ..) (ih ..)

/-- The loop comes to its end when the subscriptions are live and distinct and no request fails. -/
theorem unsubscribeAll_ok_iff :
    (unsubscribeAll faults subs closed).1 = none ↔
      (subs.map (·.id)).Nodup ∧ (∀ sub ∈ subs, sub.id ∉ closed) ∧
        ∀ i < subs.length, faults i = none := by
  induction subs generalizing faults closed with
  | nil => simp [unsubscribeAll]
  | cons sub subs ih =>
    by_cases h : sub.id ∈ closed ∨ faults 0 ≠ none
    · refine iff_of_false (unsubscribeAll_cons_of_error h).1 ?_
      rintro ⟨-, hlive, hfaults⟩
      exact h.elim (hlive sub (List.mem_cons_self ..)) fun hne => hne (hfaults 0 (Nat.succ_pos _))
    · push Not at h
      rw [unsubscribeAll_cons_of_live h.1 h.2, ih, List.map_cons, List.nodup_cons,
        List.forall_mem_cons, List.length_cons, Nat.forall_lt_succ_left]
      constructor
      · rintro ⟨hnodup, hlive, hfaults⟩
        refine ⟨⟨fun hmem => ?_, hnodup⟩, ⟨h.1, fun other hother hclosed => ?_⟩, h.2, hfaults⟩
        · obtain ⟨other, hother, heq⟩ := List.mem_map.mp hmem
          exact hlive other hother (heq ▸ List.mem_cons_self ..)
        · exact hlive other hother (List.mem_cons_of_mem _ hclosed)
      · rintro ⟨⟨hnew, hnodup⟩, ⟨-, hlive⟩, -, hfaults⟩
        refine ⟨hnodup, fun other hother hclosed => ?_, hfaults⟩
        rcases List.mem_cons.mp hclosed with heq | hclosed
        · exact hnew (heq ▸ List.mem_map_of_mem hother)
        · exact hlive other hother hclosed

/-- Then all of them are unsubscribed. -/
theorem mem_unsubscribeAll_of_ok (hok : (unsubscribeAll faults subs closed).1 = none)
    (hsub : sub ∈ subs) : sub.id ∈ (unsubscribeAll faults subs closed).2 := by
  induction subs generalizing faults closed with
  | nil => cases hsub
  | cons first subs ih =>
    have h : ¬ (first.id ∈ closed ∨ faults 0 ≠ none) := fun h =>
      (unsubscribeAll_cons_of_error h).1 hok
    push Not at h
    rw [unsubscribeAll_cons_of_live h.1 h.2] at hok ⊢
    rcases List.mem_cons.mp hsub with rfl | hsub
    · exact subset_unsubscribeAll _ _ _ (List.mem_cons_self ..)
    · exact ih hok hsub

end Loop

namespace Recorded

variable {s : Recorded} {faults : Nat → Option String}

/-- All that is recorded can be unsubscribed. -/
def Live (s : Recorded) : Prop :=
  (s.subject.map (·.id)).Nodup ∧ ∀ sub ∈ s.subject, sub.id ∉ s.closed

private theorem stopAllSubscriptions_ok_iff :
    (s.stopAllSubscriptions faults).1 = none ↔
      s.Live ∧ ∀ i < s.subject.length, faults i = none := by
  rw [Live, and_assoc, ← unsubscribeAll_ok_iff]
  unfold stopAllSubscriptions
  split <;> simp_all

/-- A call that succeeds has unsubscribed everything and forgets it. -/
theorem stopAllSubscriptions_of_ok (h : (s.stopAllSubscriptions faults).1 = none) :
    (s.stopAllSubscriptions faults).2.subject = [] ∧
      ∀ sub ∈ s.subject, sub.id ∈ (s.stopAllSubscriptions faults).2.closed := by
  have hmem : (unsubscribeAll faults s.subject s.closed).1 = none → ∀ sub ∈ s.subject,
      sub.id ∈ (unsubscribeAll faults s.subject s.closed).2 :=
    fun hok sub => mem_unsubscribeAll_of_ok hok
  unfold stopAllSubscriptions at h ⊢
  split at h <;> simp_all

/-- A call that fails keeps the record and what was unsubscribed before it. -/
theorem stopAllSubscriptions_of_error (h : (s.stopAllSubscriptions faults).1 ≠ none) :
    (s.stopAllSubscriptions faults).2 =
      ⟨s.subject, (unsubscribeAll faults s.subject s.closed).2⟩ := by
  unfold stopAllSubscriptions at h ⊢
  split at h <;> simp_all

/-- What can no longer be unsubscribed makes every later call fail, whatever the requests run
into. -/
theorem stopAllSubscriptions_stuck (h : ¬ s.Live) :
    (s.stopAllSubscriptions faults).1 ≠ none ∧ ¬ (s.stopAllSubscriptions faults).2.Live := by
  have herror : (s.stopAllSubscriptions faults).1 ≠ none := fun hok =>
    h (stopAllSubscriptions_ok_iff.mp hok).1
  refine ⟨herror, ?_⟩
  rw [stopAllSubscriptions_of_error herror]
  rintro ⟨hnodup, hlive⟩
  exact h ⟨hnodup, fun sub hsub hclosed =>
    hlive sub hsub (subset_unsubscribeAll _ _ _ hclosed)⟩

/-- After a call that has failed, what is recorded can be unsubscribed exactly if the call has
failed with its first request. -/
theorem live_after_error_iff (h : (s.stopAllSubscriptions faults).1 ≠ none) :
    (s.stopAllSubscriptions faults).2.Live ↔ s.Live ∧ faults 0 ≠ none := by
  rw [stopAllSubscriptions_of_error h]
  obtain ⟨_ | ⟨sub, subs⟩, closed⟩ := s
  · exact absurd rfl h
  · by_cases hfault : faults 0 = none
    · refine iff_of_false (fun hlive => hlive.2 sub (List.mem_cons_self ..) ?_) fun hcond =>
        hcond.2 hfault
      by_cases hsub : sub.id ∈ closed
      · exact subset_unsubscribeAll _ _ _ hsub
      · dsimp only
        rw [unsubscribeAll_cons_of_live hsub hfault]
        exact subset_unsubscribeAll _ _ _ (List.mem_cons_self ..)
    · rw [(unsubscribeAll_cons_of_error (.inr hfault)).2, and_iff_left hfault]

/-- The record after further calls. -/
def afterCalls (s : Recorded) (calls : List (Nat → Option String)) : Recorded :=
  calls.foldl (fun t faults => (t.stopAllSubscriptions faults).2) s

private theorem afterCalls_stuck (h : ¬ s.Live) (calls : List (Nat → Option String)) :
    ¬ (s.afterCalls calls).Live := by
  induction calls generalizing s with
  | nil => exact h
  | cons faults calls ih => exact ih (stopAllSubscriptions_stuck h).2

end Recorded

/-- After a call that has failed, another one in which no request fails unsubscribes all and
returns nil exactly if all that is recorded was live and the very first request has failed.
Otherwise no call returns nil ever again. -/
theorem stopAllSubscriptions_retry_iff {s s' : Recorded} {faults : Nat → Option String}
    {err : String} (h : s.stopAllSubscriptions faults = (some err, s')) :
    (((s'.stopAllSubscriptions fun _ => none).1 = none ∧
        (s'.stopAllSubscriptions fun _ => none).2.subject = [] ∧
        ∀ sub ∈ s.subject, sub.id ∈ (s'.stopAllSubscriptions fun _ => none).2.closed) ↔
      s.Live ∧ faults 0 ≠ none) ∧
    (¬ (s.Live ∧ faults 0 ≠ none) → ∀ calls faults',
      ((s'.afterCalls calls).stopAllSubscriptions faults').1 ≠ none) := by
  have herror : (s.stopAllSubscriptions faults).1 ≠ none := by simp [h]
  have hlive : s'.Live ↔ s.Live ∧ faults 0 ≠ none := by
    rw [← Recorded.live_after_error_iff herror, h]
  have hrecord := Recorded.stopAllSubscriptions_of_error herror
  rw [h] at hrecord
  change s' = _ at hrecord
  have hsubject : s'.subject = s.subject := by rw [hrecord]
  rw [← hlive]
  refine ⟨⟨fun hok => (Recorded.stopAllSubscriptions_ok_iff.mp hok.1).1, fun hs' => ?_⟩, ?_⟩
  · have hok : (s'.stopAllSubscriptions fun _ => none).1 = none :=
      Recorded.stopAllSubscriptions_ok_iff.mpr ⟨hs', fun _ _ => rfl⟩
    have hdone := Recorded.stopAllSubscriptions_of_ok hok
    rw [hsubject] at hdone
    exact ⟨hok, hdone⟩
  · intro hs' calls faults'
    exact (Recorded.stopAllSubscriptions_stuck (Recorded.afterCalls_stuck hs' calls)).1

/-- Two live subscriptions. -/
def twoSubscriptions : Recorded := ⟨[⟨0, "orders", "orders"⟩, ⟨1, "events", "events"⟩], []⟩

/-- The request at a position times out. -/
def timeoutAt (position : Nat) : Nat → Option String := fun i =>
  if i = position then some "nats: timeout" else none

/-- A call that fails at once can be repeated. -/
theorem stopAllSubscriptions_retry_at_once :
    twoSubscriptions.stopAllSubscriptions (timeoutAt 0) =
        (some "nats: timeout", twoSubscriptions) ∧
      (twoSubscriptions.stopAllSubscriptions fun _ => none).1 = none := by
  have hfails : twoSubscriptions.stopAllSubscriptions (timeoutAt 0) =
      (some "nats: timeout", twoSubscriptions) := rfl
  have hlive : twoSubscriptions.Live := ⟨by decide, by decide⟩
  exact ⟨hfails, ((stopAllSubscriptions_retry_iff hfails).1.mpr ⟨hlive, by decide⟩).1⟩

/-- A call that fails with the second request cannot: every later one stumbles over the first
subscription and never comes to the second. -/
theorem stopAllSubscriptions_stuck_at_first :
    ∃ s', twoSubscriptions.stopAllSubscriptions (timeoutAt 1) = (some "nats: timeout", s') ∧
      s'.stopAllSubscriptions (fun _ => none) = (some "nats: invalid subscription", s') ∧
      s'.subject = twoSubscriptions.subject ∧ 1 ∉ s'.closed :=
  ⟨_, rfl, rfl, rfl, by decide⟩

end Stardust.Nats
