import Stardust.Nats.Reconciliation

/-!
# Reconciling twice

`mergeSubjects` collects subjects in a map, whose keys come out in any order, and sorts them. What
it returns depends on the two lists as sets alone. So one call of `EnsureStream` leaves a stream
with all it had, and the next one has nothing to write.
-/

namespace Stardust.Nats

open Stardust.Core Function

section Merge

variable {existing desired : List String}

private theorem nodup_addSubjects {set subjects : List String} (h : set.Nodup) :
    (addSubjects set subjects).Nodup := by
  induction subjects generalizing set with
  | nil => exact h
  | cons subject subjects ih =>
    rw [addSubjects_cons]
    split
    · exact ih h
    · exact ih h.insert

/-- The merged subjects are in order and distinct. -/
theorem mergeSubjects_pairwise (existing desired : List String) :
    (mergeSubjects existing desired).1.Pairwise (· < ·) := by
  have hset : (addSubjects (addSubjects [] existing) desired).Nodup :=
    nodup_addSubjects (nodup_addSubjects List.nodup_nil)
  have hnodup : (mergeSubjects existing desired).1.Nodup :=
    (List.perm_insertionSort _ _).nodup_iff.mpr hset
  have hsorted : (mergeSubjects existing desired).1.Pairwise (· ≤ ·) :=
    List.pairwise_insertionSort _ _
  exact hsorted.imp₂ (fun _ _ hle hne => lt_of_le_of_ne hle hne) hnodup

/-- The order in which the keys of the map come does not matter, nor how they are sorted. -/
theorem eq_mergeSubjects_of_perm {keys sorted : List String}
    (hkeys : keys.Perm (addSubjects (addSubjects [] existing) desired))
    (hperm : sorted.Perm keys) (hsorted : sorted.Pairwise (· ≤ ·)) :
    sorted = (mergeSubjects existing desired).1 := by
  refine List.Perm.eq_of_pairwise (fun _ _ _ _ => le_antisymm) hsorted
    (List.pairwise_insertionSort _ _) ?_
  exact (hperm.trans hkeys).trans (List.perm_insertionSort _ _).symm

private theorem mergeSubjects_changed_iff :
    (mergeSubjects existing desired).2 = true ↔ ∃ x ∈ desired, x ≠ "" ∧ x ∉ existing := by
  rw [← Bool.not_eq_false, mergeSubjects_unchanged_iff]
  push Not
  rfl

end Merge

/-- The errors of the requests of a call. -/
structure EnsureFaults where
  info : Option StreamError
  add : Option StreamError
  update : Option StreamError
  deriving DecidableEq, Repr

/-- The requests that a call makes. -/
inductive StreamRequest where
  | streamInfo
  | addStream
  | updateStream
  deriving DecidableEq, Repr

namespace NatsConnection

/-- A call of `EnsureStream` with no other connection in between: its error, the streams after it
and its requests. -/
def ensureStream (c : NatsConnection) (faults : EnsureFaults) (streams : Streams) :
    Option StreamError × Streams × List StreamRequest :=
  if c.useStream = false then (none, streams, [])
  else if c.js = false then (some .noStreamResponse, streams, [])
  else
    match streamInfo streams faults.info c.config.streamName with
    | (none, some _) =>
      let (streams', err) := addStream streams faults.add c.config.streamName c.config.subject
      (err, streams', [.streamInfo, .addStream])
    | (some _, some err) => (some err, streams, [.streamInfo])
    | (none, none) => (none, streams, [.streamInfo])
    | (some stream, none) =>
      if (mergeSubjects stream.subjects c.config.subject).2 = false then
        (none, streams, [.streamInfo])
      else
        let (streams', err) := updateStream streams faults.update c.config.streamName
          (updateConfig stream c.config.subject)
        (err, streams', [.streamInfo, .updateStream])

end NatsConnection

section Requests

open NatsConnection

variable {streams : Streams} {fault : Option StreamError} {name : String}

/-- A stream that is created, or found to be there, has the subjects asked for. -/
theorem addStream_ok {subjects : List String}
    (h : (addStream streams fault name subjects).2 = none) :
    ∃ stream, (addStream streams fault name subjects).1 name = some stream ∧
      stream.subjects = subjects := by
  unfold addStream at h ⊢
  cases fault with
  | some err => cases h
  | none =>
    cases hstream : streams name with
    | some stream =>
      simp only [hstream] at h ⊢
      split at h
      · rename_i hsame
        rw [if_pos hsame]
        exact ⟨stream, hstream, hsame.1⟩
      · cases h
    | none =>
      simp only [hstream] at h ⊢
      split at h
      · cases h
      · rename_i hempty
        rw [dif_neg hempty]
        exact ⟨_, update_self .., rfl⟩

/-- Creating a stream leaves those that exist as they are. -/
theorem addStream_of_some {subjects : List String} {stream : StreamConfig} {other : String}
    (h : streams other = some stream) :
    (addStream streams fault name subjects).1 other = some stream := by
  unfold addStream
  cases fault with
  | some err => exact h
  | none =>
    cases hname : streams name with
    | some stream' =>
      dsimp only
      split <;> exact h
    | none =>
      have hne : other ≠ name := by
        rintro rfl
        rw [hname] at h
        cases h
      dsimp only
      split
      · exact h
      · exact (update_of_ne hne ..).trans h

/-- Replacing a configuration leaves the other streams as they are. -/
theorem updateStream_of_some (fault : Option StreamError) (name : String)
    (updateCfg : StreamConfig) {stream : StreamConfig} {other : String}
    (h : streams other = some stream) :
    (updateStream streams fault name updateCfg).1 other = some stream ∨
      other = name ∧ (updateStream streams fault name updateCfg).1 other = some updateCfg := by
  unfold updateStream
  cases fault with
  | some err => exact .inl h
  | none =>
    cases hname : streams name with
    | none => exact .inl h
    | some stream' =>
      by_cases heq : other = name
      · subst heq
        exact .inr ⟨rfl, update_self ..⟩
      · exact .inl ((update_of_ne heq ..).trans h)

private theorem updateStream_ok {updateCfg : StreamConfig}
    (h : (updateStream streams fault name updateCfg).2 = none) :
    (updateStream streams fault name updateCfg).1 name = some updateCfg := by
  unfold updateStream at h ⊢
  cases fault with
  | some err => cases h
  | none =>
    cases hname : streams name with
    | none =>
      rw [hname] at h
      cases h
    | some stream => exact update_self ..

private theorem mem_subjectsIn {x : String} :
    x ∈ subjectsIn streams name ↔ ∃ stream, streams name = some stream ∧ x ∈ stream.subjects := by
  unfold subjectsIn
  cases streams name <;> simp

end Requests

variable {result : Option StreamError × Streams × List StreamRequest}

namespace NatsConnection

variable {c : NatsConnection} {faults : EnsureFaults} {streams : Streams}

/-- The ways a call takes, with what it has done when it returns. -/
inductive Ensures (c : NatsConnection) (faults : EnsureFaults) (streams : Streams) :
    Option StreamError × Streams × List StreamRequest → Prop
  | unused (h : c.useStream = false) : Ensures c faults streams (none, streams, [])
  | disconnected (h : c.useStream = true) (err : StreamError) :
    Ensures c faults streams (some err, streams, [])
  | created (h : faults.info ≠ none ∨ streams c.config.streamName = none) :
    Ensures c faults streams
      ((addStream streams faults.add c.config.streamName c.config.subject).2,
        (addStream streams faults.add c.config.streamName c.config.subject).1,
        [.streamInfo, .addStream])
  | unchanged {stream : StreamConfig} (hinfo : faults.info = none)
      (h : streams c.config.streamName = some stream)
      (hall : ∀ x ∈ c.config.subject, x ≠ "" → x ∈ stream.subjects) :
    Ensures c faults streams (none, streams, [.streamInfo])
  | updated {stream : StreamConfig} (huse : c.useStream = true)
      (h : streams c.config.streamName = some stream)
      (hsome : ¬ ∀ x ∈ c.config.subject, x ≠ "" → x ∈ stream.subjects) :
    Ensures c faults streams
      ((updateStream streams faults.update c.config.streamName
          (updateConfig stream c.config.subject)).2,
        (updateStream streams faults.update c.config.streamName
          (updateConfig stream c.config.subject)).1,
        [.streamInfo, .updateStream])

/-- Every call takes one of the ways. -/
theorem ensures (c : NatsConnection) (faults : EnsureFaults) (streams : Streams) :
    Ensures c faults streams (c.ensureStream faults streams) := by
  unfold ensureStream
  split
  · rename_i huse
    exact .unused huse
  · rename_i huse
    split
    · exact .disconnected (by simpa using huse) _
    · unfold streamInfo
      cases hinfo : faults.info with
      | some err => exact .created (.inl (by simp [hinfo]))
      | none =>
        cases hstream : streams c.config.streamName with
        | none => exact .created (.inr hstream)
        | some stream =>
          dsimp only
          split
          · rename_i hunchanged
            exact .unchanged hinfo hstream (mergeSubjects_unchanged_iff.mp hunchanged)
          · rename_i hchanged
            have hsome := mt mergeSubjects_unchanged_iff.mpr hchanged
            exact .updated (by simpa using huse) hstream hsome

/-- No call takes a subject from a stream. -/
theorem Ensures.keeps (h : Ensures c faults streams result) {name x : String}
    (hx : x ∈ subjectsIn streams name) : x ∈ subjectsIn result.2.1 name := by
  obtain ⟨stream, hstream, hmem⟩ := mem_subjectsIn.mp hx
  cases h with
  | unused | disconnected | unchanged => exact hx
  | created => exact mem_subjectsIn.mpr ⟨stream, addStream_of_some hstream, hmem⟩
  | @updated read _ hread =>
    rcases updateStream_of_some faults.update c.config.streamName
      (updateConfig read c.config.subject) hstream with hkept | ⟨rfl, hwritten⟩
    · exact mem_subjectsIn.mpr ⟨stream, hkept, hmem⟩
    · obtain rfl := Option.some.inj (hread.symm.trans hstream)
      refine mem_subjectsIn.mpr ⟨_, hwritten, ?_⟩
      have hne : x ≠ "" := fun hempty => read.valid (hempty ▸ hmem)
      exact mem_mergeSubjects.mpr ⟨hne, .inl hmem⟩

/-- A call that returns without an error leaves the stream with the subjects of the connection. -/
theorem Ensures.settles (h : Ensures c faults streams result) (huse : c.useStream = true)
    (hok : result.1 = none) :
    ∃ stream, result.2.1 c.config.streamName = some stream ∧
      ∀ x ∈ c.config.subject, x ≠ "" → x ∈ stream.subjects := by
  cases h with
  | unused hunused => simp [huse] at hunused
  | disconnected => cases hok
  | created =>
    obtain ⟨stream, hstream, hsubjects⟩ := addStream_ok hok
    exact ⟨stream, hstream, fun x hx _ => hsubjects ▸ hx⟩
  | unchanged _ hstream hall => exact ⟨_, hstream, hall⟩
  | updated => exact ⟨_, updateStream_ok hok, fun x hx hne => mem_mergeSubjects.mpr ⟨hne, .inr hx⟩⟩

/-- A call on a stream that has the subjects of the connection writes nothing. -/
theorem Ensures.no_update
    (h : Ensures c faults streams result)
    (hsettled : c.useStream = true → ∃ stream, streams c.config.streamName = some stream ∧
      ∀ x ∈ c.config.subject, x ≠ "" → x ∈ stream.subjects) :
    .updateStream ∉ result.2.2 := by
  cases h with
  | unused | disconnected | created | unchanged => simp
  | updated huse hread hsome =>
    obtain ⟨stream, hstream, hall⟩ := hsettled huse
    obtain rfl := Option.some.inj (hread.symm.trans hstream)
    exact absurd hall hsome

end NatsConnection

namespace Fleet

variable {ι : Type} [DecidableEq ι] {s : Fleet ι} {i : ι}

/-- A call with no other in between is a run of the steps that a call takes among others. -/
theorem run_ensureStream (hidle : (s.connections i).phase = .idle) (faults : EnsureFaults) :
    ∃ labels, (fleets ι).run s labels =
      some (({ s with streams := ((s.connections i).ensureStream faults s.streams).2.1 } :
        Fleet ι).move i (.returned ((s.connections i).ensureStream faults s.streams).1)) := by
  unfold NatsConnection.ensureStream
  by_cases huse : (s.connections i).useStream = false
  · refine ⟨[.call i], ?_⟩
    simp [System.run, fleets, step, hidle, NatsConnection.begin, huse]
  · by_cases hjs : (s.connections i).js = false
    · refine ⟨[.call i], ?_⟩
      simp [System.run, fleets, step, hidle, NatsConnection.begin, huse, hjs]
    · rw [if_neg huse, if_neg hjs]
      have hbegin : (s.connections i).begin = .inspecting := by
        simp [NatsConnection.begin, huse, hjs]
      unfold NatsConnection.streamInfo
      cases hinfo : faults.info with
      | some err =>
        refine ⟨[.call i, .streamInfo i (some err), .addStream i faults.add], ?_⟩
        simp [System.run, fleets, step, hidle, hbegin, move, NatsConnection.streamInfo,
          NatsConnection.onInfo]
      | none =>
        cases hstream : s.streams (s.connections i).config.streamName with
        | none =>
          refine ⟨[.call i, .streamInfo i none, .addStream i faults.add], ?_⟩
          simp [System.run, fleets, step, hidle, hbegin, move, NatsConnection.streamInfo,
            NatsConnection.onInfo, hstream]
        | some stream =>
          by_cases hunchanged :
              (mergeSubjects stream.subjects (s.connections i).config.subject).2 = false
          · refine ⟨[.call i, .streamInfo i none, .merge i], ?_⟩
            simp [System.run, fleets, step, hidle, hbegin, move, NatsConnection.streamInfo,
              NatsConnection.onInfo, NatsConnection.merge, hstream, hunchanged]
          · refine ⟨[.call i, .streamInfo i none, .merge i, .updateStream i faults.update], ?_⟩
            simp [System.run, fleets, step, hidle, hbegin, move, NatsConnection.streamInfo,
              NatsConnection.onInfo, NatsConnection.merge, hstream, hunchanged]

/-- Two connections merge their subjects. -/
theorem run_ensureStream_two : ∃ labels s', (fleets (Fin 2)).run twoConnections labels = some s' ∧
    s'.subjects "jobs" = ["b", "old"] :=
  (run_ensureStream (i := 1) rfl ⟨none, none, none⟩).imp fun _ h => ⟨_, h, by decide +kernel⟩

end Fleet

/-- Merging gives the distinct nonempty subjects of both lists in order, however the map is
iterated and sorted, and says whether the second has added any. No call of `EnsureStream` takes a
subject from a stream, and after a call without an error the next one writes nothing. -/
theorem mergeSubjects_reconciles :
    (∀ existing desired,
      (mergeSubjects existing desired).1.Pairwise (· < ·) ∧
      (∀ x, x ∈ (mergeSubjects existing desired).1 ↔ x ≠ "" ∧ (x ∈ existing ∨ x ∈ desired)) ∧
      ((mergeSubjects existing desired).2 = true ↔ ∃ x ∈ desired, x ≠ "" ∧ x ∉ existing) ∧
      ∀ keys sorted, keys.Perm (addSubjects (addSubjects [] existing) desired) →
        sorted.Perm keys → sorted.Pairwise (· ≤ ·) → sorted = (mergeSubjects existing desired).1) ∧
    ∀ (c : NatsConnection) (faults : EnsureFaults) (streams : Streams),
      (∀ name x, x ∈ subjectsIn streams name →
        x ∈ subjectsIn (c.ensureStream faults streams).2.1 name) ∧
      ((c.ensureStream faults streams).1 = none → ∀ faults',
        .updateStream ∉ (c.ensureStream faults' (c.ensureStream faults streams).2.1).2.2) := by
  refine ⟨fun existing desired => ⟨mergeSubjects_pairwise .., fun x => mem_mergeSubjects,
    mergeSubjects_changed_iff, fun keys sorted => eq_mergeSubjects_of_perm⟩, ?_⟩
  intro c faults streams
  refine ⟨fun name x => (c.ensures faults streams).keeps, fun hok faults' => ?_⟩
  exact (c.ensures faults' _).no_update fun huse => (c.ensures faults streams).settles huse hok

/-- A server with one stream. -/
def ordersStreams : Streams := fun name =>
  if name = "ORDERS" then some ⟨["orders.new"], .workQueue, by simp⟩ else none

/-- A connection that adds a subject to it. -/
def paidConnection : NatsConnection :=
  ⟨⟨"ORDERS", ["orders.paid", "", "orders.paid"]⟩, true, true, .idle⟩

/-- The first call writes, keeping what was there, and the second does not. -/
theorem mergeSubjects_reconciles_orders :
    (mergeSubjects ["orders.new"] ["orders.paid", "", "orders.paid"]).1.Pairwise (· < ·) ∧
      (paidConnection.ensureStream ⟨none, none, none⟩ ordersStreams).2.2 =
        [.streamInfo, .updateStream] ∧
      "orders.new" ∈ subjectsIn
        (paidConnection.ensureStream ⟨none, none, none⟩ ordersStreams).2.1 "ORDERS" ∧
      .updateStream ∉ (paidConnection.ensureStream ⟨none, none, none⟩
        (paidConnection.ensureStream ⟨none, none, none⟩ ordersStreams).2.1).2.2 := by
  obtain ⟨hmerge, hcall⟩ := mergeSubjects_reconciles
  obtain ⟨hkeeps, hsettles⟩ := hcall paidConnection ⟨none, none, none⟩ ordersStreams
  exact ⟨(hmerge ..).1, rfl, hkeeps "ORDERS" "orders.new" (by decide), hsettles rfl _⟩

end Stardust.Nats
