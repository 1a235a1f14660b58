import Mathlib.Data.List.Count
import Stardust.Uuid.History

/-!
# A worker under a clock that steps back

A worker follows its history: as long as no millisecond runs out of numbers, each call returns the
ID that the history gives. It forgets a millisecond when it leaves it, and so repeats its IDs when
the clock steps back to it.
-/

namespace Stardust.Uuid

open Stardust.Core

/-- Calls of `Get` one after another, each with its own readings of the clock, and their IDs. -/
def UuidWorker.getAll : UuidWorker → List (List Int64) → Option (List Int64 × UuidWorker)
  | w, [] => some ([], w)
  | w, readings :: calls =>
    match w.get readings with
    | some (id, w, []) => (w.getAll calls).map fun (ids, w) => (id :: ids, w)
    | _ => none

/-- The fields of a worker after a history. -/
structure UuidWorker.Follows (w : UuidWorker) (history : List Event) : Prop where
  workerID : w.workerID = currentWorker history
  number : 0 ≤ w.number.toInt ∧ w.number.toInt ≤ 4095
  /-- The number is that of the last request, if it read the stored millisecond. -/
  next : ∀ now, now ≠ 0 →
    (streak (.read now) history : Int) = if now = w.timestamp then w.number.toInt + 1 else 0

/-- A new worker has served nothing; only the millisecond zero would look as if it had. -/
theorem follows_made {workerID : Int64} {w : UuidWorker} (h : newUuidWorker workerID = .ok w)
    (history : List Event) : w.Follows (history ++ [.made workerID]) := by
  obtain ⟨rfl, -, -⟩ := newUuidWorker_ok h
  refine ⟨by simp, ⟨le_rfl, show (0 : Int64).toInt ≤ 4095 by decide⟩, fun now hnow => ?_⟩
  rw [streak_concat, if_neg (by simp), if_neg hnow]
  rfl

/-- A call finds a number as long as its millisecond has any left. -/
theorem UuidWorker.Follows.not_exhausted {w : UuidWorker} {history : List Event} {now : Int64}
    (h : w.Follows history) (hnow : now ≠ 0) (hleft : streak (.read now) history ≤ 4095)
    (readings : List Int64) : ¬w.Exhausted (now :: readings) := by
  rintro ⟨hsame, hmax⟩
  have hsame : now = w.timestamp := Option.some.inj hsame
  have hnext := h.next now hnow
  have hs := succ_toInt h.number.1 h.number.2
  rw [if_pos hsame] at hnext
  rw [Int64.lt_iff_toInt_lt, numberMax_toInt, hs] at hmax
  omega

/-- One call: it reads the clock once, and returns the ID that its history gives. -/
theorem UuidWorker.Follows.get {w w' : UuidWorker} {history : List Event} {now id : Int64}
    {readings : List Int64} (h : w.Follows history) (hnow : now ≠ 0)
    (hleft : streak (.read now) history ≤ 4095)
    (hget : w.get (now :: readings) = some (id, w', [])) :
    readings = [] ∧ id = idAfter history now ∧ w'.Follows (history ++ [.read now]) := by
  obtain ⟨now', hreadings, rfl, hcase⟩ :=
    UuidWorker.get_cases hget (h.not_exhausted hnow hleft readings)
  obtain ⟨rfl, rfl⟩ := List.cons.inj hreadings
  have hnext := h.next now hnow
  have hworker : w'.workerID = currentWorker history := by
    rcases hcase with ⟨-, -, rfl⟩ | ⟨-, rfl⟩ <;> exact h.workerID
  have htimestamp : w'.timestamp = now := by
    rcases hcase with ⟨rfl, -, rfl⟩ | ⟨-, rfl⟩ <;> rfl
  have hnumber : w'.number.toInt = streak (.read now) history := by
    rcases hcase with ⟨rfl, -, rfl⟩ | ⟨hne, rfl⟩
    · rw [if_pos rfl] at hnext
      rw [succ_toInt h.number.1 h.number.2, hnext]
    · rw [if_neg (Ne.symm hne)] at hnext
      rw [hnext]
      rfl
  have hofNat : w'.number = Int64.ofNat (streak (.read now) history) :=
    Int64.toInt.inj (by rw [hnumber, ofNat_toInt hleft])
  refine ⟨rfl, ?_, ?_⟩
  · rw [w'.compose_eq_packId, hworker, hofNat]
    rfl
  · refine ⟨by simpa using hworker, by omega, fun now' hnow' => ?_⟩
    rw [streak_concat, htimestamp]
    by_cases heq : now' = now
    · subst heq
      rw [if_pos rfl, if_pos rfl, hnumber]
      push_cast
      rfl
    · rw [if_neg (by simpa using Ne.symm heq), if_neg heq]
      rfl

/-- What each call reads first. -/
def firstReadings (calls : List (List Int64)) : List Int64 := calls.filterMap List.head?

private theorem firstReadings_count_le (calls : List (List Int64)) (now : Int64) :
    (firstReadings calls).count now ≤ calls.countP (now ∈ ·) := by
  induction calls with
  | nil => exact le_rfl
  | cons readings calls ih =>
    cases readings with
    | nil =>
      rw [List.countP_cons_of_neg (by simp)]
      exact ih
    | cons first readings =>
      have hcons : firstReadings ((first :: readings) :: calls) = first :: firstReadings calls :=
        rfl
      rw [hcons, List.count_cons, List.countP_cons]
      by_cases heq : first = now
      · simpa [heq] using ih
      · simp only [beq_iff_eq, heq, if_false]
        omega

/-- A worker that follows its history goes on to do so, and its IDs are those of the history. -/
theorem UuidWorker.Follows.getAll {w w' : UuidWorker} {history : List Event}
    {calls : List (List Int64)} {ids : List Int64} (h : w.Follows history)
    (hnonzero : 0 ∉ firstReadings calls)
    (hleft : ∀ before now after, firstReadings calls = before ++ now :: after →
      streak (.read now) (history ++ before.map .read) ≤ 4095)
    (hcalls : w.getAll calls = some (ids, w')) :
    ids = idsFrom history ((firstReadings calls).map .read) := by
  induction calls generalizing w history ids with
  | nil =>
    cases hcalls
    rfl
  | cons readings calls ih =>
    cases readings with
    | nil => cases hcalls
    | cons now readings =>
      have hcons : firstReadings ((now :: readings) :: calls) = now :: firstReadings calls := rfl
      rw [hcons] at hnonzero hleft ⊢
      rw [List.mem_cons, not_or] at hnonzero
      simp only [UuidWorker.getAll] at hcalls
      split at hcalls
      · next id w₁ hget =>
        obtain ⟨⟨ids₁, w₂⟩, hrest, heq⟩ := Option.map_eq_some_iff.mp hcalls
        cases heq
        have hfirst := hleft [] now _ rfl
        rw [List.map_nil, List.append_nil] at hfirst
        obtain ⟨-, rfl, hfollows⟩ := h.get (Ne.symm hnonzero.1) hfirst hget
        rw [List.map_cons, idsFrom]
        refine congrArg _ (ih hfollows hnonzero.2 (fun before now' after heq => ?_) hrest)
        have hlater := hleft (now :: before) now' after (by rw [heq]; rfl)
        rwa [List.map_cons, ← List.singleton_append, ← List.append_assoc] at hlater
      · cases hcalls

/-- The clock never comes back to a reading that it has left, as far as an ID can tell. -/
def NeverReturns (readings : List Int64) : Prop :=
  ∀ before x between y after, readings = before ++ x :: (between ++ y :: after) →
    timeField x = timeField y → ∀ z ∈ between ++ [y], z = x

private theorem currentWorker_reads (history : List Event) (readings : List Int64) :
    currentWorker (history ++ readings.map .read) = currentWorker history := by
  induction readings using List.reverseRecOn with
  | nil => simp
  | append_singleton readings now ih =>
    rw [List.map_append, List.map_singleton, ← List.append_assoc, currentWorker_read, ih]

/-- With one worker only, the clock alone matters. -/
theorem neverBack_reads_iff (workerID : Int64) (readings : List Int64) :
    NeverBack (.made workerID :: readings.map .read) ↔ NeverReturns readings := by
  constructor
  · intro h before x between y after heq htime z hz
    have hworker : currentWorker (.made workerID :: before.map .read) =
        currentWorker (.made workerID :: before.map .read ++ .read x :: between.map .read) := by
      have hall := currentWorker_reads [.made workerID] (before ++ x :: between)
      have hbefore := currentWorker_reads [.made workerID] before
      simp only [List.singleton_append, List.map_append, List.map_cons] at hall hbefore
      exact hbefore.trans hall.symm
    have hread := h (.made workerID :: before.map .read) x (between.map .read) y
      (after.map .read) (by rw [heq]; simp) htime hworker (.read z) (by
        rw [← List.map_singleton, ← List.map_append]
        exact List.mem_map_of_mem hz)
    exact Event.read.inj hread
  · intro h before x between y after heq htime _ e he
    cases before with
    | nil => cases heq
    | cons first before =>
      obtain ⟨-, heq⟩ := List.cons.inj heq
      obtain ⟨before', rest₁, rfl, -, heq₁⟩ := List.map_eq_append_iff.mp heq
      obtain ⟨x', rest₂, rfl, hx, heq₂⟩ := List.map_eq_cons_iff.mp heq₁
      obtain ⟨between', rest₃, rfl, rfl, heq₃⟩ := List.map_eq_append_iff.mp heq₂
      obtain ⟨y', after', rfl, hy, -⟩ := List.map_eq_cons_iff.mp heq₃
      cases hx
      cases hy
      have hall := h before' x between' y after' rfl htime
      rcases List.mem_append.mp he with he | he
      · obtain ⟨z, hz, rfl⟩ := List.mem_map.mp he
        rw [hall z (List.mem_append_left _ hz)]
      · rw [List.mem_singleton.mp he, hall y (by simp)]

/-- The IDs of a worker are distinct exactly when the clock never steps back to a millisecond in
which it has issued IDs before, whatever else the clock does, with no more calls in any
millisecond than there are numbers. -/
theorem worker_ids_distinct_iff {workerID : Int64} {w w' : UuidWorker} {calls : List (List Int64)}
    {ids : List Int64} (hnew : newUuidWorker workerID = .ok w)
    (hcalls : w.getAll calls = some (ids, w'))
    (hnumbers : ∀ now, calls.countP (now ∈ ·) ≤ 4096) (hnonzero : 0 ∉ firstReadings calls) :
    ids.Nodup ↔ NeverReturns (firstReadings calls) := by
  have hfits : Fits (.made workerID :: (firstReadings calls).map .read) := by
    refine ⟨fun k hk => ?_, fun now => ?_⟩
    · obtain rfl : k = workerID := by simpa using hk
      obtain ⟨-, hlo, hhi⟩ := newUuidWorker_ok hnew
      rw [ValidWorker, Int64.le_iff_toInt_le, Int64.le_iff_toInt_le, workerMax_toInt,
        Int64.toInt_zero]
      exact ⟨hlo, hhi⟩
    · have hle := (firstReadings_count_le calls now).trans (hnumbers now)
      rwa [List.count_cons_of_ne (by simp),
        List.count_map_of_injective _ _ fun _ _ => Event.read.inj]
  have hids : ids = idsFrom [.made workerID] ((firstReadings calls).map .read) := by
    refine (follows_made hnew []).getAll hnonzero (fun before now after heq => ?_) hcalls
    have hsplit : Event.made workerID :: (firstReadings calls).map Event.read =
        [.made workerID] ++ before.map Event.read ++ .read now :: after.map Event.read := by
      rw [heq]
      simp
    exact hfits.streak_le hsplit
  have hall : idsFrom [.made workerID] ((firstReadings calls).map .read) =
      idsFrom [] (.made workerID :: (firstReadings calls).map .read) := rfl
  rw [hids, hall, hfits.nodup_idsFrom_iff, neverBack_reads_iff]

/-- A clock that steps back to a millisecond it has not shown before. -/
theorem worker_ids_distinct_back_elsewhere : ∃ ids w',
    (⟨0, 5, 0⟩ : UuidWorker).getAll [[epoch + 1], [epoch + 1], [epoch], [epoch + 2]] =
        some (ids, w') ∧
      NeverReturns [epoch + 1, epoch + 1, epoch, epoch + 2] ∧ ids.Nodup := by
  refine ⟨_, _, rfl, ?_, by decide⟩
  have hnumbers : ∀ now : Int64,
      [[epoch + 1], [epoch + 1], [epoch], [epoch + 2]].countP (now ∈ ·) ≤ 4096 :=
    fun _ => List.countP_le_length.trans (by decide)
  have hnew : newUuidWorker 5 = .ok ⟨0, 5, 0⟩ := rfl
  exact (worker_ids_distinct_iff hnew rfl hnumbers (by decide)).mp (by decide)

/-- A clock that steps back by a millisecond and goes on: the third ID is the first one again. -/
theorem worker_ids_repeat_after_step_back : ∃ first second w',
    newUuidWorker 1 = .ok ⟨0, 1, 0⟩ ∧
      (⟨0, 1, 0⟩ : UuidWorker).getAll [[epoch + 1], [epoch], [epoch + 1]] =
        some ([first, second, first], w') := by
  exact ⟨_, _, _, rfl, rfl⟩

end Stardust.Uuid
