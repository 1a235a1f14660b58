import Stardust.Core.System
import Stardust.Nats.Stream

/-!
# Several connections reconcile one stream

Each connection reads the stream, merges its subjects and writes the result back, in steps
that interleave with those of the other connections. The write replaces whatever is there, so
nothing is lost as long as each write contains all subjects that the stream has at that moment.
-/

namespace Stardust.Nats

open Stardust.Core NatsConnection Function

/-- Connections on one server. -/
structure Fleet (ι : Type) where
  connections : ι → NatsConnection
  streams : Streams

/-- The steps of the calls. -/
inductive EnsureLabel (ι : Type) where
  | call (i : ι)
  | streamInfo (i : ι) (fault : Option StreamError)
  | merge (i : ι)
  | addStream (i : ι) (fault : Option StreamError)
  | updateStream (i : ι) (fault : Option StreamError)
  deriving DecidableEq, Repr

/-- The connection has returned. -/
def NatsConnection.Returned (c : NatsConnection) : Prop := ∃ err, c.phase = .returned err

/-- The connection has found or left its subjects in the stream. -/
def NatsConnection.Settled (c : NatsConnection) : Prop :=
  match c.phase with
  | .returned none => True
  | .inspected stream => ∀ x ∈ c.config.subject, x ≠ "" → x ∈ stream.subjects
  | _ => False

namespace Fleet

variable {ι : Type}

/-- A connection goes on to its next phase. -/
def move [DecidableEq ι] (s : Fleet ι) (i : ι) (phase : EnsurePhase) : Fleet ι :=
  { s with connections := update s.connections i { s.connections i with phase } }

/-- One step of one call. -/
def step [DecidableEq ι] (s : Fleet ι) : EnsureLabel ι → Option (Fleet ι)
  | .call i =>
    if (s.connections i).phase = .idle then some (s.move i (s.connections i).begin) else none
  | .streamInfo i fault =>
    if (s.connections i).phase = .inspecting then
      let (stream, err) :=
        streamInfo s.streams fault (s.connections i).config.streamName
      some (s.move i (onInfo stream err))
    else none
  | .merge i =>
    match (s.connections i).phase with
    | .inspected stream => some (s.move i ((s.connections i).merge stream))
    | _ => none
  | .addStream i fault =>
    if (s.connections i).phase = .creating then
      let (streams, err) := addStream s.streams fault
        (s.connections i).config.streamName (s.connections i).config.subject
      some ({ s with streams }.move i (.returned err))
    else none
  | .updateStream i fault =>
    match (s.connections i).phase with
    | .updating updateCfg =>
      let (streams, err) := updateStream s.streams fault
        (s.connections i).config.streamName updateCfg
      some ({ s with streams }.move i (.returned err))
    | _ => none

/-- All connections are to reconcile one existing stream and have not begun. -/
structure Ready (name : String) (start : StreamConfig) (s : Fleet ι) : Prop where
  /-- The calls have not begun. -/
  idle : ∀ i, (s.connections i).phase = .idle
  uses : ∀ i, (s.connections i).useStream = true ∧ (s.connections i).js = true ∧
    (s.connections i).config.streamName = name
  /-- The stream exists. -/
  found : s.streams name = some start

/-- The runs of the calls on one stream. -/
def fleets (ι : Type) [DecidableEq ι] : System (Fleet ι) (EnsureLabel ι) :=
  ⟨fun s => ∃ name start, s.Ready name start, step⟩

/-- The subjects of a stream. -/
def subjects (s : Fleet ι) (name : String) : List String := subjectsIn s.streams name

/-- The stream has its first subjects and those of every settled connection. -/
def Covered (name : String) (start : StreamConfig) (s : Fleet ι) : Prop :=
  (∀ x ∈ start.subjects, x ∈ s.subjects name) ∧
    ∀ i, (s.connections i).Settled → ∀ x ∈ (s.connections i).config.subject, x ≠ "" →
      x ∈ s.subjects name

/-- A write that reaches the server contains all subjects that the stream has at that moment. -/
def WritesAll (s : Fleet ι) : EnsureLabel ι → Prop
  | .updateStream i none =>
    match (s.connections i).phase with
    | .updating updateCfg =>
      ∀ x ∈ s.subjects (s.connections i).config.streamName, x ∈ updateCfg.subjects
    | _ => True
  | _ => True

instance (s : Fleet ι) : ∀ label, Decidable (s.WritesAll label)
  | .updateStream i none =>
    match h : (s.connections i).phase with
    | .updating updateCfg =>
      decidable_of_iff
        (∀ x ∈ s.subjects (s.connections i).config.streamName, x ∈ updateCfg.subjects)
        (by simp only [WritesAll, h])
    | .idle | .inspecting | .creating | .inspected _ | .returned _ =>
      isTrue (by simp only [WritesAll, h])
  | .call _ | .streamInfo _ _ | .merge _ | .addStream _ _ | .updateStream _ (some _) =>
    isTrue trivial

/-- The steps of calls on a stream that exists, by their effects. -/
inductive Moves (now : StreamConfig) (s : Fleet ι) :
    EnsureLabel ι → ι → EnsurePhase → StreamConfig → Prop
  | called {i : ι} (h : (s.connections i).phase = .idle) :
    Moves now s (.call i) i .inspecting now
  | informed {i : ι} (h : (s.connections i).phase = .inspecting) :
    Moves now s (.streamInfo i none) i (.inspected now) now
  | uninformed {i : ι} {err : StreamError} (h : (s.connections i).phase = .inspecting) :
    Moves now s (.streamInfo i (some err)) i .creating now
  | unchanged {i : ι} {stream : StreamConfig} (h : (s.connections i).phase = .inspected stream)
    (hall : ∀ x ∈ (s.connections i).config.subject, x ≠ "" → x ∈ stream.subjects) :
    Moves now s (.merge i) i (.returned none) now
  | changed {i : ι} {stream : StreamConfig} (h : (s.connections i).phase = .inspected stream)
    (hsome : ¬ ∀ x ∈ (s.connections i).config.subject, x ≠ "" → x ∈ stream.subjects) :
    Moves now s (.merge i) i
      (.updating (updateConfig stream (s.connections i).config.subject)) now
  | confirmed {i : ι} (h : (s.connections i).phase = .creating)
    (hsame : now.subjects = (s.connections i).config.subject) :
    Moves now s (.addStream i none) i (.returned none) now
  | refused {i : ι} {fault : Option StreamError} {err : StreamError}
    (h : (s.connections i).phase = .creating) :
    Moves now s (.addStream i fault) i (.returned (some err)) now
  | updated {i : ι} {updateCfg : StreamConfig} (h : (s.connections i).phase = .updating updateCfg) :
    Moves now s (.updateStream i none) i (.returned none) updateCfg
  | failed {i : ι} {err : StreamError} {updateCfg : StreamConfig}
    (h : (s.connections i).phase = .updating updateCfg) :
    Moves now s (.updateStream i (some err)) i (.returned (some err)) now

/-- Every step of calls on an existing stream has one of the effects. -/
theorem step_moves [DecidableEq ι] {name : String} {now : StreamConfig} {s s' : Fleet ι}
    {label : EnsureLabel ι}
    (huses : ∀ i, (s.connections i).useStream = true ∧ (s.connections i).js = true ∧
      (s.connections i).config.streamName = name)
    (hnow : s.streams name = some now) (h : s.step label = some s') :
    ∃ i phase now', s.Moves now label i phase now' ∧ s'.streams name = some now' ∧
      s'.connections = update s.connections i { s.connections i with phase } := by
  cases label with
  | call i =>
    simp only [step] at h
    split at h <;> cases h
    next hphase =>
    refine ⟨i, _, _, .called hphase, hnow, ?_⟩
    simp [move, begin, huses i]
  | streamInfo i fault =>
    simp only [step, (huses i).2.2, streamInfo, hnow] at h
    split at h
    · next hphase =>
      cases fault <;> cases h
      · exact ⟨i, _, _, .informed hphase, hnow, rfl⟩
      · exact ⟨i, _, _, .uninformed hphase, hnow, rfl⟩
    · cases h
  | merge i =>
    simp only [step, merge] at h
    split at h
    · next stream hphase =>
      cases h
      by_cases hall : ∀ x ∈ (s.connections i).config.subject, x ≠ "" → x ∈ stream.subjects
      · refine ⟨i, _, _, .unchanged hphase hall, hnow, ?_⟩
        simp only [move, if_pos (mergeSubjects_unchanged_iff.mpr hall)]
      · refine ⟨i, _, _, .changed hphase hall, hnow, ?_⟩
        simp only [move, if_neg (mt mergeSubjects_unchanged_iff.mp hall)]
    · cases h
  | addStream i fault =>
    simp only [step, (huses i).2.2, addStream, hnow] at h
    split at h
    · next hphase =>
      cases fault with
      | none =>
        simp only at h
        split at h <;> cases h
        · next hsame => exact ⟨i, _, _, .confirmed hphase hsame.1, hnow, rfl⟩
        · exact ⟨i, _, _, .refused hphase, hnow, rfl⟩
      | some err =>
        cases h
        exact ⟨i, _, _, .refused hphase, hnow, rfl⟩
    · cases h
  | updateStream i fault =>
    simp only [step, (huses i).2.2, updateStream, hnow] at h
    split at h
    · next updateCfg hphase =>
      cases fault <;> cases h
      · exact ⟨i, _, _, .updated hphase, update_self .., rfl⟩
      · exact ⟨i, _, _, .failed hphase, hnow, rfl⟩
    · cases h

/-- A subject comes from the first configuration or from a settled connection. -/
def Sourced (start : StreamConfig) (s : Fleet ι) (x : String) : Prop :=
  x ∈ start.subjects ∨
    ∃ i, (s.connections i).Settled ∧ x ∈ (s.connections i).config.subject ∧ x ≠ ""

/-- What holds throughout the runs on one stream. -/
structure Orderly (name : String) (start : StreamConfig) (s : Fleet ι) : Prop where
  uses : ∀ i, (s.connections i).useStream = true ∧ (s.connections i).js = true ∧
    (s.connections i).config.streamName = name
  /-- The stream exists, and all its subjects have a source. -/
  found : ∃ now, s.streams name = some now ∧ ∀ x ∈ now.subjects, s.Sourced start x
  /-- What a connection has read has a source. -/
  inspected : ∀ i stream, (s.connections i).phase = .inspected stream →
    ∀ x ∈ stream.subjects, s.Sourced start x
  /-- What a connection is about to write has its subjects, and nothing else without a source. -/
  updating : ∀ i updateCfg, (s.connections i).phase = .updating updateCfg →
    (∀ x ∈ (s.connections i).config.subject, x ≠ "" → x ∈ updateCfg.subjects) ∧
      ∀ x ∈ updateCfg.subjects,
        s.Sourced start x ∨ x ∈ (s.connections i).config.subject ∧ x ≠ ""
  /-- Until the first return the stream is as it was, and so is what was read of it. -/
  untouched : (∀ i, ¬ (s.connections i).Returned) → s.streams name = some start ∧
    (∀ i stream, (s.connections i).phase = .inspected stream → stream = start) ∧
    ∀ i updateCfg, (s.connections i).phase = .updating updateCfg →
      updateCfg = updateConfig start (s.connections i).config.subject

private theorem Ready.orderly {name : String} {start : StreamConfig} {s : Fleet ι}
    (h : s.Ready name start) : s.Orderly name start where
  uses := h.uses
  found := ⟨start, h.found, fun _ hx => Or.inl hx⟩
  inspected := by simp [h.idle]
  updating := by simp [h.idle]
  untouched := fun _ => ⟨h.found, by simp [h.idle], by simp [h.idle]⟩

private theorem Ready.covered {name : String} {start : StreamConfig} {s : Fleet ι}
    (h : s.Ready name start) : s.Covered name start := by
  refine ⟨fun x hx => ?_, fun i hsettled => ?_⟩
  · simpa [subjects, subjectsIn, h.found] using hx
  · simp [NatsConnection.Settled, h.idle i] at hsettled

section Step

variable {name : String} {start now now' : StreamConfig} {s s' : Fleet ι} {label : EnsureLabel ι}
  {i : ι} {phase : EnsurePhase}

private theorem subjects_eq (hnow : s.streams name = some now) :
    s.subjects name = now.subjects := by
  rw [subjects, subjectsIn, hnow]
  rfl

/-- Only a connection that has not returned takes a step. -/
theorem Moves.not_returned (hmoves : s.Moves now label i phase now') :
    ¬ (s.connections i).Returned := by
  rintro ⟨err, herr⟩
  cases hmoves <;> simp_all

/-- The first write contains what the stream has. -/
theorem writesAll_of_first (ho : s.Orderly name start) (hnone : ∀ i, ¬ (s.connections i).Returned)
    (label : EnsureLabel ι) : s.WritesAll label := by
  obtain ⟨hnow, -, hwrite⟩ := ho.untouched hnone
  cases label with
  | updateStream i fault =>
    cases fault with
    | some err => trivial
    | none =>
      simp only [WritesAll]
      split
      · next updateCfg hphase =>
        rw [(ho.uses i).2.2, subjects_eq hnow, hwrite i updateCfg hphase]
        intro x hx
        have hne : x ≠ "" := fun hempty => start.valid (hempty ▸ hx)
        exact mem_mergeSubjects.mpr ⟨hne, Or.inl hx⟩
      · trivial
  | _ => trivial

variable [DecidableEq ι]

/-- A step changes nothing of a connection but its phase. -/
theorem config_of_update
    (h : s'.connections = update s.connections i { s.connections i with phase }) (j : ι) :
    (s'.connections j).config = (s.connections j).config ∧
      (s'.connections j).useStream = (s.connections j).useStream ∧
      (s'.connections j).js = (s.connections j).js := by
  rw [h]
  by_cases hj : j = i
  · rw [hj, update_self]
    exact ⟨rfl, rfl, rfl⟩
  · rw [update_of_ne hj]
    exact ⟨rfl, rfl, rfl⟩

/-- The phases after a step: that of the connection that moved, and the others as they were. -/
theorem phase_of_update
    (h : s'.connections = update s.connections i { s.connections i with phase }) (j : ι) :
    j = i ∧ (s'.connections j).phase = phase ∨
      j ≠ i ∧ s'.connections j = s.connections j := by
  rw [h]
  by_cases hj : j = i
  · left
    rw [hj, update_self]
    exact ⟨rfl, rfl⟩
  · exact Or.inr ⟨hj, update_of_ne hj ..⟩

/-- A settled connection stays so. -/
theorem Settled.moves {j : ι} (hsettled : (s.connections j).Settled)
    (hmoves : s.Moves now label i phase now')
    (h : s'.connections = update s.connections i { s.connections i with phase }) :
    (s'.connections j).Settled := by
  rcases phase_of_update h j with ⟨rfl, hphase⟩ | ⟨-, hsame⟩
  · unfold NatsConnection.Settled at hsettled ⊢
    rw [hphase]
    cases hmoves <;> simp_all
  · rwa [hsame]

/-- A source stays one. -/
theorem Sourced.moves {x : String} (hx : s.Sourced start x)
    (hmoves : s.Moves now label i phase now')
    (h : s'.connections = update s.connections i { s.connections i with phase }) :
    s'.Sourced start x := by
  refine hx.imp_right ?_
  rintro ⟨j, hsettled, hmem, hne⟩
  refine ⟨j, Settled.moves hsettled hmoves h, ?_, hne⟩
  rwa [(config_of_update h j).1]

/-- What a connection is about to write after a step has its subjects, and nothing else without
a source. -/
theorem Orderly.updating_moves (ho : s.Orderly name start)
    (hmoves : s.Moves now label i phase now')
    (h : s'.connections = update s.connections i { s.connections i with phase }) {j : ι}
    {updateCfg : StreamConfig} (hwrite : (s'.connections j).phase = .updating updateCfg) :
    (∀ x ∈ (s'.connections j).config.subject, x ≠ "" → x ∈ updateCfg.subjects) ∧
      ∀ x ∈ updateCfg.subjects,
        s'.Sourced start x ∨ x ∈ (s'.connections j).config.subject ∧ x ≠ "" := by
  have hkeep : ∀ x, s.Sourced start x → s'.Sourced start x := fun x hx => hx.moves hmoves h
  rw [(config_of_update h j).1]
  rcases phase_of_update h j with ⟨rfl, hphase⟩ | ⟨-, hsame⟩
  · rw [hphase] at hwrite
    cases hmoves <;> cases hwrite
    next stream hread _ =>
    simp only [updateConfig, mem_mergeSubjects]
    refine ⟨fun x hx hne => ⟨hne, Or.inr hx⟩, ?_⟩
    rintro x ⟨hne, hold | hnew⟩
    · exact Or.inl (hkeep x (ho.inspected j stream hread x hold))
    · exact Or.inr ⟨hnew, hne⟩
  · rw [hsame] at hwrite
    obtain ⟨hall, hsource⟩ := ho.updating j updateCfg hwrite
    exact ⟨hall, fun x hx => (hsource x hx).imp_left (hkeep x)⟩

/-- Until the first return a step leaves the stream as it was, and reads and merges that. -/
theorem Orderly.untouched_moves (ho : s.Orderly name start) (hnow : s.streams name = some now)
    (hmoves : s.Moves now label i phase now')
    (h : s'.connections = update s.connections i { s.connections i with phase })
    (hnone : ∀ j, ¬ (s'.connections j).Returned) :
    now' = start ∧
      (∀ j stream, (s'.connections j).phase = .inspected stream → stream = start) ∧
      ∀ j updateCfg, (s'.connections j).phase = .updating updateCfg →
        updateCfg = updateConfig start (s'.connections j).config.subject := by
  have hbefore : ∀ j, ¬ (s.connections j).Returned := by
    intro j hreturned
    rcases phase_of_update h j with ⟨rfl, -⟩ | ⟨-, hsame⟩
    · exact hmoves.not_returned hreturned
    · exact hnone j (hsame ▸ hreturned)
  obtain ⟨hstart, hread, hwrite⟩ := ho.untouched hbefore
  rw [hnow, Option.some.injEq] at hstart
  have hphase : ∀ err, phase ≠ .returned err := by
    rintro err rfl
    exact hnone i ⟨err, by rw [h, update_self]⟩
  refine ⟨?_, fun j stream hj => ?_, fun j updateCfg hj => ?_⟩
  · cases hmoves <;> first | exact hstart | exact absurd rfl (hphase _)
  · rcases phase_of_update h j with ⟨rfl, hnew⟩ | ⟨-, hsame⟩
    · rw [hnew] at hj
      cases hmoves <;> cases hj
      exact hstart
    · exact hread j stream (hsame ▸ hj)
  · rw [(config_of_update h j).1]
    rcases phase_of_update h j with ⟨rfl, hnew⟩ | ⟨-, hsame⟩
    · rw [hnew] at hj
      cases hmoves <;> cases hj
      next stream hold _ => rw [hread j stream hold]
    · exact hwrite j updateCfg (hsame ▸ hj)

private theorem Orderly.step (ho : s.Orderly name start) (hstep : s.step label = some s') :
    s'.Orderly name start := by
  obtain ⟨now, hnow, hsourced⟩ := ho.found
  obtain ⟨i, phase, now', hmoves, hnow', h⟩ := step_moves ho.uses hnow hstep
  have hkeep : ∀ x, s.Sourced start x → s'.Sourced start x := fun x hx => hx.moves hmoves h
  refine ⟨?_, ⟨now', hnow', ?_⟩, ?_, fun j updateCfg => ho.updating_moves hmoves h, ?_⟩
  · intro j
    obtain ⟨hconfig, huse, hjs⟩ := config_of_update h j
    rw [hconfig, huse, hjs]
    exact ho.uses j
  · intro x hx
    cases hmoves with
    | updated hphase =>
      rcases (ho.updating i _ hphase).2 x hx with hold | ⟨hmem, hne⟩
      · exact hkeep x hold
      · refine Or.inr ⟨i, ?_, ?_, hne⟩
        · rw [h, update_self]
          trivial
        · rwa [(config_of_update h i).1]
    | _ => exact hkeep x (hsourced x hx)
  · intro j stream hread
    rcases phase_of_update h j with ⟨rfl, hphase⟩ | ⟨-, hsame⟩
    · rw [hphase] at hread
      cases hmoves <;> cases hread
      exact fun x hx => hkeep x (hsourced x hx)
    · rw [hsame] at hread
      exact fun x hx => hkeep x (ho.inspected j stream hread x hx)
  · intro hnone
    obtain ⟨rfl, hread, hwrite⟩ := ho.untouched_moves hnow hmoves h hnone
    exact ⟨hnow', hread, hwrite⟩

/-- A step keeps all subjects exactly when it is no write, or one that contains what the stream
has. -/
theorem covered_step (ho : s.Orderly name start) (hc : s.Covered name start)
    (hstep : s.step label = some s') : s'.Covered name start ↔ s.WritesAll label := by
  obtain ⟨now, hnow, hsourced⟩ := ho.found
  obtain ⟨i, phase, now', hmoves, hnow', h⟩ := step_moves ho.uses hnow hstep
  obtain ⟨hstart, hsettled⟩ := hc
  simp only [subjects_eq hnow] at hstart hsettled
  simp only [Covered, subjects_eq hnow']
  have hquiet : (∀ x ∈ now.subjects, x ∈ now'.subjects) → ((s'.connections i).Settled →
      ∀ x ∈ (s.connections i).config.subject, x ≠ "" → x ∈ now'.subjects) →
      (∀ x ∈ start.subjects, x ∈ now'.subjects) ∧ ∀ j, (s'.connections j).Settled →
        ∀ x ∈ (s'.connections j).config.subject, x ≠ "" → x ∈ now'.subjects := by
    intro hgrow hown
    refine ⟨fun x hx => hgrow x (hstart x hx), fun j hj x hx hne => ?_⟩
    rw [(config_of_update h j).1] at hx
    rcases phase_of_update h j with ⟨rfl, -⟩ | ⟨-, hsame⟩
    · exact hown hj x hx hne
    · exact hgrow x (hsettled j (hsame ▸ hj) x hx hne)
  have hsettles : (s'.connections i).Settled ↔
      NatsConnection.Settled { s.connections i with phase } := by rw [h, update_self]
  have hkeep : ∀ j, (s.connections j).Settled → (s'.connections j).Settled :=
    fun j hj => Settled.moves hj hmoves h
  cases hmoves with
  | updated hphase =>
    simp only [WritesAll, hphase, (ho.uses i).2.2, subjects_eq hnow]
    refine ⟨fun hc' x hx => ?_, fun hgrow => hquiet hgrow fun _ => (ho.updating i _ hphase).1⟩
    rcases hsourced x hx with hfirst | ⟨j, hj, hmem, hne⟩
    · exact hc'.1 x hfirst
    · refine hc'.2 j (hkeep j hj) x ?_ hne
      rwa [(config_of_update h j).1]
  | informed => exact iff_of_true (hquiet (fun _ hx => hx) hsettles.mp) trivial
  | unchanged hread hall =>
    refine iff_of_true (hquiet (fun _ hx => hx) fun _ => hsettled i ?_) trivial
    simpa only [NatsConnection.Settled, hread] using hall
  | confirmed _ hsame =>
    exact iff_of_true (hquiet (fun _ hx => hx) fun _ x hx _ => hsame ▸ hx) trivial
  | called | uninformed | changed | refused | failed =>
    exact iff_of_true (hquiet (fun _ hx => hx) fun hs => (hsettles.mp hs).elim) trivial

/-- Steps are over once all connections have returned. -/
theorem step_of_returned (ho : s.Orderly name start) (hall : ∀ i, (s.connections i).Returned) :
    s.step label ≠ some s' := by
  intro hstep
  obtain ⟨now, hnow, -⟩ := ho.found
  obtain ⟨i, _, _, hmoves, -⟩ := step_moves ho.uses hnow hstep
  exact hmoves.not_returned (hall i)

end Step

section Two

variable {name : String} {start : StreamConfig} {s s' : Fleet (Fin 2)}
  {label : EnsureLabel (Fin 2)}

/-- With two connections, subjects are lost by the second write only. -/
theorem returned_of_lost (ho : s.Orderly name start)
    (hlost : ¬ s.Covered name start → ∀ i, (s.connections i).Returned)
    (hstep : s.step label = some s') (hlost' : ¬ s'.Covered name start) (j : Fin 2) :
    (s'.connections j).Returned := by
  have hc : s.Covered name start := by
    by_contra hc
    exact step_of_returned ho (hlost hc) hstep
  have hwrite : ¬ s.WritesAll label := fun hw => hlost' ((covered_step ho hc hstep).mpr hw)
  by_contra hj
  obtain ⟨now, hnow, -⟩ := ho.found
  obtain ⟨i, phase, now', hmoves, -, h⟩ := step_moves ho.uses hnow hstep
  have hphase : phase = .returned none := by
    cases hmoves <;> first | rfl | exact absurd trivial hwrite
  rcases phase_of_update h j with ⟨rfl, hnew⟩ | ⟨hne, hsame⟩
  · exact hj ⟨none, hnew.trans hphase⟩
  · refine hwrite (writesAll_of_first ho (fun k hk => ?_) label)
    rcases (by omega : k = i ∨ k = j) with rfl | rfl
    · exact hmoves.not_returned hk
    · exact hj (hsame ▸ hk)

/-- After both of two connections have reconciled a stream without an error, it has its first
subjects and the nonempty ones of both exactly when each write contained all subjects that the
stream had at that moment. -/
theorem ensure_stream_keeps_iff_writes_all {labels : List (EnsureLabel (Fin 2))}
    (hready : s.Ready name start) (hrun : (fleets (Fin 2)).run s labels = some s')
    (hreturned : ∀ i, (s'.connections i).phase = .returned none) :
    ((∀ x ∈ start.subjects, x ∈ s'.subjects name) ∧
        ∀ i, ∀ x ∈ (s'.connections i).config.subject, x ≠ "" → x ∈ s'.subjects name) ↔
      (fleets (Fin 2)).Guarded WritesAll s labels := by
  have hsettled : ∀ i, (s'.connections i).Settled := fun i => by
    simp only [NatsConnection.Settled, hreturned i]
  have hcovered : s'.Covered name start ↔ (fleets (Fin 2)).Guarded WritesAll s labels := by
    refine (fleets (Fin 2)).final_iff_guarded (I := fun t => t.Orderly name start ∧
      (¬ t.Covered name start → ∀ i, (t.connections i).Returned)) ?_ ?_ ?_
      ⟨hready.orderly, fun hlost => absurd hready.covered hlost⟩ hready.covered hrun
    · rintro t label t' ⟨ho, hlost⟩ hstep
      exact ⟨ho.step hstep, returned_of_lost ho hlost hstep⟩
    · rintro t label t' ⟨ho, -⟩ hc hstep
      exact covered_step ho hc hstep
    · rintro t label t' ⟨ho, hlost⟩ hc hstep
      exact absurd hstep (step_of_returned ho (hlost hc))
  rw [← hcovered]
  exact and_congr_right fun _ => ⟨fun hall i _ => hall i, fun hall i => hall i (hsettled i)⟩

end Two

/-- Two connections, each with a subject of its own, on a stream with a third. -/
def twoConnections : Fleet (Fin 2) where
  connections i := ⟨⟨"jobs", [if i = 0 then "a" else "b"]⟩, true, true, .idle⟩
  streams := update (fun _ => none) "jobs" (some ⟨["old"], .workQueue, by decide⟩)

private theorem twoConnections_ready :
    twoConnections.Ready "jobs" ⟨["old"], .workQueue, by decide⟩ where
  idle := fun _ => rfl
  uses := fun _ => ⟨rfl, rfl, rfl⟩
  found := rfl

/-- The steps of a call that changes the stream. -/
def ensureStream (i : Fin 2) : List (EnsureLabel (Fin 2)) :=
  [.call i, .streamInfo i none, .merge i, .updateStream i none]

/-- One call after the other loses nothing. -/
theorem ensure_stream_keeps_in_turn :
    (fleets (Fin 2)).Guarded WritesAll twoConnections (ensureStream 0 ++ ensureStream 1) ∧
      ∃ s', (fleets (Fin 2)).run twoConnections (ensureStream 0 ++ ensureStream 1) = some s' ∧
        (∀ i, (s'.connections i).phase = .returned none) ∧
        (∀ x ∈ ["old"], x ∈ s'.subjects "jobs") ∧
        ∀ i, ∀ x ∈ (s'.connections i).config.subject, x ≠ "" → x ∈ s'.subjects "jobs" := by
  have hguard : (fleets (Fin 2)).Guarded WritesAll twoConnections
      (ensureStream 0 ++ ensureStream 1) := by decide
  have hreturned : ∀ s', (fleets (Fin 2)).run twoConnections
      (ensureStream 0 ++ ensureStream 1) = some s' →
        ∀ i, (s'.connections i).phase = .returned none := by
    rintro _ ⟨⟩
    exact Fin.forall_fin_two.mpr ⟨rfl, rfl⟩
  refine ⟨hguard, _, rfl, hreturned _ rfl, ?_⟩
  exact (ensure_stream_keeps_iff_writes_all twoConnections_ready rfl (hreturned _ rfl)).mpr hguard

/-- Two calls that read before either writes: the subject of the first is lost. -/
theorem ensure_stream_loses_subject :
    ∃ s', twoConnections.Ready "jobs" ⟨["old"], .workQueue, by decide⟩ ∧
      (fleets (Fin 2)).run twoConnections
        [.call 0, .streamInfo 0 none, .merge 0, .call 1, .streamInfo 1 none, .merge 1,
          .updateStream 0 none, .updateStream 1 none] = some s' ∧
      (∀ i, (s'.connections i).phase = .returned none) ∧
      s'.subjects "jobs" = ["b", "old"] ∧
      "a" ∈ (s'.connections 0).config.subject ∧ "a" ∉ s'.subjects "jobs" := by
  exact ⟨_, twoConnections_ready, rfl, Fin.forall_fin_two.mpr ⟨rfl, rfl⟩, by decide, by decide,
    by decide⟩

end Fleet

end Stardust.Nats
