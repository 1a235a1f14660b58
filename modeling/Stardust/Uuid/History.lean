import Stardust.Core.Streak
import Stardust.Uuid.Fleet

/-!
# IDs by their history

A worker numbers the requests that read one millisecond one after another. A history lists what
happened so far, the making of a new worker or a request with its reading of the clock, and
determines the next ID. The IDs of a history are distinct exactly when under no worker ID a
millisecond is served, left and served again.
-/

namespace Stardust.Uuid

open Stardust.Core

/-- What an ID depends on. -/
inductive Event where
  /-- A new worker takes the place of the one before. -/
  | made (workerID : Int64)
  /-- A request reads the clock. -/
  | read (now : Int64)
  deriving DecidableEq, Repr

/-- The event is a request. -/
def Event.IsRead (e : Event) : Prop := ∃ now, e = .read now

instance : DecidablePred Event.IsRead
  | .made _ => isFalse (by rintro ⟨_, ⟨⟩⟩)
  | .read now => isTrue ⟨now, rfl⟩

/-- The part of an ID that the clock determines, 42 bits of the offset. -/
def timeField (now : Int64) : Int64 := (now - epoch) <<< timeShift

/-- The worker ID after a history; the package starts with worker 0. -/
def currentWorker (history : List Event) : Int64 :=
  history.foldl
    (fun current e => match e with
      | .made workerID => workerID
      | .read _ => current)
    0

@[simp] theorem currentWorker_made (history : List Event) (workerID : Int64) :
    currentWorker (history ++ [.made workerID]) = workerID := by
  simp [currentWorker]

@[simp] theorem currentWorker_read (history : List Event) (now : Int64) :
    currentWorker (history ++ [.read now]) = currentWorker history := by
  simp [currentWorker]

/-- The ID of a request after a history. -/
def idAfter (history : List Event) (now : Int64) : Int64 :=
  packId (now - epoch) (currentWorker history) (Int64.ofNat (streak (.read now) history))

/-- The IDs that the requests of a list of events get after a history. -/
def idsFrom (history : List Event) : List Event → List Int64
  | [] => []
  | .made workerID :: events => idsFrom (history ++ [.made workerID]) events
  | .read now :: events => idAfter history now :: idsFrom (history ++ [.read now]) events

/-- A worker ID that the constructor takes. -/
def ValidWorker (workerID : Int64) : Prop := 0 ≤ workerID ∧ workerID ≤ workerMax

instance (workerID : Int64) : Decidable (ValidWorker workerID) :=
  inferInstanceAs (Decidable (_ ∧ _))

/-- Under one worker ID, a request whose reading looks to an ID like that of an earlier request
has the same reading, and so has every request between them, with no new worker made. -/
def NeverBack (events : List Event) : Prop :=
  ∀ before x between y after, events = before ++ .read x :: (between ++ .read y :: after) →
    timeField x = timeField y →
    currentWorker before = currentWorker (before ++ .read x :: between) →
    ∀ e ∈ between ++ [.read y], e = .read x

/-- Every worker ID is valid, and no millisecond is read more often than it has numbers. -/
structure Fits (events : List Event) : Prop where
  valid : ∀ workerID, .made workerID ∈ events → ValidWorker workerID
  numbered : ∀ now, events.count (.read now) ≤ 4096

private theorem ValidWorker.toInt {workerID : Int64} (h : ValidWorker workerID) :
    0 ≤ workerID.toInt ∧ workerID.toInt ≤ 1023 := by
  obtain ⟨hlo, hhi⟩ := h
  rw [Int64.le_iff_toInt_le] at hlo hhi
  rw [Int64.toInt_zero] at hlo
  rw [workerMax_toInt] at hhi
  exact ⟨hlo, hhi⟩

/-- The worker ID is the one the package starts with, or that of the last worker made. -/
theorem currentWorker_cases (history : List Event) :
    currentWorker history = 0 ∨ .made (currentWorker history) ∈ history := by
  induction history using List.reverseRecOn with
  | nil => exact .inl rfl
  | append_singleton history e ih =>
    cases e with
    | made workerID => simp
    | read now => simpa using ih

private theorem Fits.currentWorker {events before after : List Event} (h : Fits events)
    (heq : events = before ++ after) : ValidWorker (currentWorker before) := by
  rcases currentWorker_cases before with hzero | hmade
  · rw [hzero]
    decide
  · refine h.valid _ ?_
    rw [heq]
    exact List.mem_append_left _ hmade

/-- A request finds a number inside its field. -/
theorem Fits.streak_le {events before after : List Event} {now : Int64} (h : Fits events)
    (heq : events = before ++ .read now :: after) : streak (.read now) before ≤ 4095 := by
  have hle := streak_le_count (.read now) before
  have hcount := h.numbered now
  rw [heq, List.count_append, List.count_cons_self] at hcount
  omega

/-- A number fits its field. -/
theorem ofNat_toInt {n : Nat} (h : n ≤ 4095) : (Int64.ofNat n).toInt = n :=
  Int64.toInt_ofNat_of_lt (by omega)

/-- What tells requests apart beside their numbers: the field of the clock and the worker ID. -/
def fields (history : List Event) : Event → Option (Int64 × Int64)
  | .made _ => none
  | .read now => some (timeField now, currentWorker history)

private theorem fields_concat (history : List Event) (e : Event) :
    fields (history ++ [e]) e = fields history e := by
  cases e with
  | made workerID => rfl
  | read now => rw [fields, currentWorker_read, fields]

private theorem neverBack_iff_together {events : List Event} :
    NeverBack events ↔ Together Event.IsRead fields events := by
  constructor
  · rintro h before _ between _ after heq ⟨x, rfl⟩ ⟨y, rfl⟩ hsame
    simp only [fields, Option.some.injEq, Prod.mk.injEq] at hsame
    exact h before x between y after heq hsame.1 hsame.2
  · intro h before x between y after heq htime hworker
    refine h before (.read x) between (.read y) after heq ⟨x, rfl⟩ ⟨y, rfl⟩ ?_
    rw [fields, fields, htime, hworker]

/-- The ID at a place in a list of events. -/
def idAt : List Event × Event → Int64
  | (_, .made _) => 0
  | (history, .read now) => idAfter history now

private theorem idsFrom_eq_map (history events : List Event) :
    idsFrom history events = (places Event.IsRead history events).map idAt := by
  induction events generalizing history with
  | nil => rfl
  | cons e events ih =>
    cases e with
    | made workerID =>
      have hmade : ¬(Event.made workerID).IsRead := by rintro ⟨_, ⟨⟩⟩
      rw [idsFrom, places, if_neg hmade, ih]
    | read now =>
      rw [idsFrom, places, if_pos ⟨now, rfl⟩, List.map_cons, ← ih]
      rfl

/-- Two requests of one list of events get the same ID exactly when they have the same field of
the clock, worker ID and number. -/
theorem Fits.idAfter_eq_iff {events before before' after after' : List Event} {x y : Int64}
    (h : Fits events) (hx : events = before ++ .read x :: after)
    (hy : events = before' ++ .read y :: after') :
    idAfter before x = idAfter before' y ↔
      fields before (.read x) = fields before' (.read y) ∧
        streak (.read x) before = streak (.read y) before' := by
  have hnumber := ofNat_toInt (h.streak_le hx)
  have hnumber' := ofNat_toInt (h.streak_le hy)
  have hle := h.streak_le hx
  have hle' := h.streak_le hy
  rw [idAfter, idAfter, packId_inj (h.currentWorker hx).toInt (h.currentWorker hy).toInt
    (by omega) (by omega)]
  simp only [fields, Option.some.injEq, Prod.mk.injEq, and_assoc]
  refine and_congr_right fun _ => and_congr_right fun _ => ⟨fun heq => ?_, fun heq => ?_⟩
  · rw [heq] at hnumber
    omega
  · rw [heq]

/-- The IDs of a list of events are distinct exactly when the clock never comes back under one
worker ID. -/
theorem Fits.nodup_idsFrom_iff {events : List Event} (h : Fits events) :
    (idsFrom [] events).Nodup ↔ NeverBack events := by
  rw [neverBack_iff_together, ← nodup_places_iff fields_concat, idsFrom_eq_map, List.Nodup,
    List.Nodup, List.pairwise_map, List.pairwise_map]
  refine List.Pairwise.iff_of_mem ?_
  rintro ⟨before, e⟩ ⟨before', e'⟩ hq hq'
  obtain ⟨⟨x, rfl⟩, _, after, hx, rfl⟩ := mem_places.mp hq
  obtain ⟨⟨y, rfl⟩, _, after', hy, rfl⟩ := mem_places.mp hq'
  rw [ne_eq, ne_eq, Prod.mk.injEq]
  exact not_congr (h.idAfter_eq_iff hx hy)

end Stardust.Uuid
