import Stardust.Nats.Goroutines

/-!
# Handlers that panic

The goroutines of a subscription recover from a panic of the handler, but around their whole loop:
the recovery ends the goroutine. The subscription stays recorded, and nothing takes its messages
any more.
-/

namespace Stardust.Nats

open Stardust.Core FetchGoroutine

section Fetch

namespace FetchGoroutine

variable {subject : String} {panics : Msg → Bool} {s s' : FetchGoroutine} {l : FetchEvent}

/-- The goroutine has ended only after the context, and with its last batch handled. -/
def Outlives (subject : String) (s : FetchGoroutine) : Prop :=
  ∀ left, s.position = .ended left → s.cancelled = true ∧ ∀ msg ∈ left, msg.subject ≠ subject

/-- Unless the handler panics, the head of the loop is the only way out. -/
theorem Outlives.step (hpanics : ∀ msg, msg.subject = subject → panics msg = false)
    (h : s.Outlives subject) (hstep : s.step subject panics l = some s') :
    s'.Outlives subject := by
  intro left hleft
  cases l with
  | cancel =>
    cases hstep
    exact ⟨rfl, (h left hleft).2⟩
  | select =>
    simp only [step] at hstep
    split_ifs at hstep with hposition hcancelled <;> cases hstep <;> cases hleft
    exact ⟨hcancelled, by simp⟩
  | fetched | fetchTimeout | fetchFailed | fetchNoResponders | selfHeal =>
    simp only [step] at hstep
    split_ifs at hstep
    cases hstep
    cases hleft
  | next =>
    simp only [step] at hstep
    split at hstep
    · rename_i msg rest hposition
      obtain rfl := Option.some.inj hstep
      by_cases hsubject : msg.subject = subject
      · simp [process, hsubject, hpanics msg hsubject] at hleft
      · simp [process, hsubject] at hleft
    · obtain rfl := Option.some.inj hstep
      cases hleft
    · cases hstep

/-- A goroutine that has ended handles nothing any more. -/
theorem handled_of_ended {left : List Msg} {ls : List FetchEvent} (h : s.position = .ended left)
    (hrun : (fetchLoops subject panics).run s ls = some s') : s'.handled = s.handled := by
  have hstays := (fetchLoops subject panics).run_invariant
    (P := fun t => t.position = .ended left ∧ t.handled = s.handled) ?_ ⟨h, rfl⟩ hrun
  · exact hstays.2
  · rintro t l t' ⟨hposition, hhandled⟩ hstep
    cases l with
    | cancel =>
      cases hstep
      exact ⟨hposition, hhandled⟩
    | _ => simp [fetchLoops, step, hposition] at hstep

end FetchGoroutine

end Fetch

section Core

namespace CoreGoroutine

variable {panics : Msg → Bool} {s s' : CoreGoroutine} {l : CoreGoroutineEvent}

/-- The goroutine has ended only after the context. -/
def Outlives (s : CoreGoroutine) : Prop := s.ended = true → s.cancelled = true

/-- Unless the handler panics, the context is the only way out. -/
theorem Outlives.step (hpanics : ∀ msg, panics msg = false) (h : s.Outlives)
    (hstep : s.step panics l = some s') : s'.Outlives := by
  cases l with
  | cancel =>
    cases hstep
    exact fun _ => rfl
  | callback msg =>
    simp only [CoreGoroutine.step] at hstep
    split_ifs at hstep
    cases hstep
    exact h
  | done =>
    simp only [CoreGoroutine.step] at hstep
    split_ifs at hstep with hdone
    cases hstep
    exact fun _ => hdone.2
  | receive =>
    simp only [CoreGoroutine.step] at hstep
    split at hstep
    · rename_i msg rest _ _
      obtain rfl := Option.some.inj hstep
      intro hended
      simp [hpanics msg] at hended
    · cases hstep

end CoreGoroutine

end Core

/-- Both goroutines of a subscription end only after the context and leave no message of a batch
behind, in all their runs, exactly when the handler never panics on a message it is given. -/
theorem subscription_outlives_iff (subject : String) (panics : Msg → Bool) :
    ((∀ s, (fetchLoops subject panics).Reachable s → s.Outlives subject) ↔
        ∀ msg, msg.subject = subject → panics msg = false) ∧
      ((∀ s, (CoreGoroutine.coreLoops panics).Reachable s → s.Outlives) ↔
        ∀ msg, panics msg = false) := by
  refine ⟨⟨fun hall msg hsubject => ?_, fun hpanics s hs => ?_⟩,
    ⟨fun hall msg => ?_, fun hpanics s hs => ?_⟩⟩
  · by_contra hpanic
    have hrun : (fetchLoops subject panics).run .start
        [.select, .fetched [msg], .next] = some ⟨.ended [], false, [msg], []⟩ := by
      simp [System.run, fetchLoops, step, start,
        process, hsubject, hpanic]
    cases (hall _ ⟨_, _, rfl, hrun⟩ [] rfl).1
  · refine hs.invariant ?_ fun _ _ _ => FetchGoroutine.Outlives.step hpanics
    rintro s rfl left ⟨⟩
  · by_contra hpanic
    have hrun : (CoreGoroutine.coreLoops panics).run .start [.callback msg, .receive] =
        some ⟨[], false, true, [msg]⟩ := by
      simpa [System.run, CoreGoroutine.coreLoops, CoreGoroutine.step, CoreGoroutine.start]
        using hpanic
    cases hall _ ⟨_, _, rfl, hrun⟩ rfl
  · refine hs.invariant ?_ fun _ _ _ => CoreGoroutine.Outlives.step hpanics
    rintro s rfl ⟨⟩

/-- A handler that panics on one message. -/
def panicsOnBad (msg : Msg) : Bool := msg.data = "bad"

/-- The message after the bad one is left in its batch, and no other is ever handled. -/
theorem subscription_ends_at_bad_message :
    ∃ s, (fetchLoops "orders" panicsOnBad).run .start
        [.select, .fetched [⟨"orders", "bad"⟩, ⟨"orders", "good"⟩], .next] = some s ∧
      s.cancelled = false ∧ s.position = .ended [⟨"orders", "good"⟩] ∧
      ∀ ls s', (fetchLoops "orders" panicsOnBad).run s ls = some s' →
        s'.handled = [⟨"orders", "bad"⟩] :=
  ⟨_, rfl, rfl, rfl, fun _ _ hrun => handled_of_ended rfl hrun⟩

namespace FetchGoroutine

variable {subject : String} {panics : Msg → Bool} {s s' : FetchGoroutine} {l : FetchEvent}

/-- Nothing is acknowledged before its handler has returned, and all that was handled is
acknowledged but for a message at which the handler has panicked. -/
structure Acknowledges (subject : String) (panics : Msg → Bool) (s : FetchGoroutine) : Prop where
  returned : ∀ msg ∈ s.acked, msg.subject = subject ∧ panics msg = false
  rest : s.handled = s.acked ∨ ∃ msg left, s.handled = s.acked ++ [msg] ∧
    msg.subject = subject ∧ panics msg = true ∧ s.position = .ended left

private theorem Acknowledges.step (h : s.Acknowledges subject panics)
    (hstep : s.step subject panics l = some s') : s'.Acknowledges subject panics := by
  obtain ⟨hreturned, hrest⟩ := h
  cases l with
  | next =>
    simp only [step] at hstep
    split at hstep
    · rename_i msg rest hposition
      obtain rfl := Option.some.inj hstep
      have hall : s.handled = s.acked := by simpa [hposition] using hrest
      unfold process
      split_ifs with hsubject hpanics
      · exact ⟨hreturned, .inr ⟨msg, rest, by rw [hall], hsubject, hpanics, rfl⟩⟩
      · refine ⟨?_, .inl (by rw [hall])⟩
        simpa [or_imp, forall_and, hsubject, hpanics] using hreturned
      · exact ⟨hreturned, .inl hall⟩
    · rename_i hposition
      obtain rfl := Option.some.inj hstep
      exact ⟨hreturned, .inl (by simpa [hposition] using hrest)⟩
    · cases hstep
  | _ => constructor <;> grind [step]

/-- A message is acknowledged only after its handler has returned, in every run. -/
theorem acknowledges_after_handler (subject : String) (panics : Msg → Bool) (s : FetchGoroutine)
    (hreach : (fetchLoops subject panics).Reachable s) : s.Acknowledges subject panics :=
  hreach.invariant (by rintro s rfl; exact ⟨List.forall_mem_nil _, .inl rfl⟩)
    fun _ _ _ h hstep => h.step hstep

/-- The handler panics at the second message. -/
theorem acknowledges_before_bad_message :
    ∃ s : FetchGoroutine, s.acked = [⟨"orders", "good"⟩] ∧
      s.handled = [⟨"orders", "good"⟩, ⟨"orders", "bad"⟩] ∧
      s.Acknowledges "orders" panicsOnBad :=
  ⟨⟨.ended [], false, [⟨"orders", "good"⟩, ⟨"orders", "bad"⟩], [⟨"orders", "good"⟩]⟩, rfl, rfl,
    acknowledges_after_handler _ _ _ ⟨.start, [.select,
      .fetched [⟨"orders", "good"⟩, ⟨"orders", "bad"⟩], .next, .next], rfl, rfl⟩⟩

end FetchGoroutine

end Stardust.Nats
