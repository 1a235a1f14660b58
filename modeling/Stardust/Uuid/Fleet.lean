import Stardust.Core.System
import Stardust.Uuid.Worker

/-!
# Fleets of snowflake workers

Every worker owns its clock readings and its fields, so a run of the fleet is a
list of workers in call order. As long as no call finds its millisecond used up,
the IDs of one worker increase strictly and no ID repeats across the fleet. The
exhausted branch breaks both: it returns a number one past the field, which the
OR folds into the worker ID, under a millisecond that it does not store.
-/

namespace Stardust.Uuid

open Function

/-- Workers, their remaining clock readings, and every ID returned so far. -/
structure Fleet (ι : Type*) where
  /-- The fields of each worker. -/
  worker : ι → UuidWorker
  /-- The millisecond readings each worker is still going to see. -/
  clock : ι → List Int64
  /-- The returned IDs with their workers, in call order. -/
  issued : List (ι × Int64)

/-- Non-decreasing millisecond readings inside the 41-bit offset range. -/
def ClockOk (clock : List Int64) : Prop :=
  clock.Pairwise (· ≤ ·) ∧ ∀ r ∈ clock, epoch.toInt ≤ r.toInt ∧ r.toInt < epoch.toInt + 2 ^ 41

/-- The next reading is the stored millisecond and its numbers are used up. -/
def UuidWorker.Exhausted (w : UuidWorker) (clock : List Int64) : Prop :=
  clock.head? = some w.timestamp ∧ numberMax < w.number + 1

instance (w : UuidWorker) (clock : List Int64) : Decidable (w.Exhausted clock) :=
  inferInstanceAs (Decidable (_ ∧ _))

/-- Calls on constructed workers with distinct IDs; a label names the called worker. -/
def fleetSystem (ι : Type*) [DecidableEq ι] : Core.System (Fleet ι) ι where
  init s := s.issued = [] ∧ Function.Injective (fun i => (s.worker i).workerID) ∧
    ∀ i, newUuidWorker (s.worker i).workerID = .ok (s.worker i) ∧ ClockOk (s.clock i)
  step s i := ((s.worker i).get (s.clock i)).map fun (id, w, clock) =>
    ⟨update s.worker i w, update s.clock i clock, s.issued ++ [(i, id)]⟩

/-- The IDs returned by one worker are strictly increasing in call order. -/
def Fleet.IncreasingPerWorker {ι : Type*} (s : Fleet ι) : Prop :=
  s.issued.Pairwise fun a b => a.1 = b.1 → a.2 < b.2

/-- No ID was returned twice by the whole fleet. -/
def Fleet.NoneRepeated {ι : Type*} (s : Fleet ι) : Prop := (s.issued.map Prod.snd).Nodup

variable {w w' : UuidWorker} {id : Int64} {clock clock' : List Int64}

/-- A call that is not exhausted either counts up inside the stored millisecond or
opens a new one, and stores the millisecond that it packs. -/
theorem UuidWorker.get_cases (h : w.get clock = some (id, w', clock')) (hne : ¬ w.Exhausted clock) :
    ∃ now, clock = now :: clock' ∧ id = w'.compose now ∧
      ((w.timestamp = now ∧ ¬ numberMax < w.number + 1 ∧ w' = { w with number := w.number + 1 }) ∨
        (w.timestamp ≠ now ∧ w' = { w with number := 0, timestamp := now })) := by
  cases clock with
  | nil => simp [UuidWorker.get] at h
  | cons now rest =>
    simp only [UuidWorker.get] at h
    split at h
    · rename_i heq
      split at h
      · rename_i hmax
        exact absurd ⟨by simp [heq], hmax⟩ hne
      · rename_i hmax
        cases h
        exact ⟨now, rfl, rfl, Or.inl ⟨heq, hmax, rfl⟩⟩
    · rename_i hneq
      cases h
      exact ⟨now, rfl, rfl, Or.inr ⟨hneq, rfl⟩⟩

/-- The fields of a worker stay inside their widths and behind its clock. -/
structure WorkerOk (w : UuidWorker) (clock : List Int64) : Prop where
  /-- The worker ID fits its field. -/
  workerID : 0 ≤ w.workerID.toInt ∧ w.workerID.toInt ≤ 1023
  /-- The number fits its field. -/
  number : 0 ≤ w.number.toInt ∧ w.number.toInt ≤ 4095
  /-- The remaining readings are ordered and in range. -/
  readings : ClockOk clock
  /-- No remaining reading lies before the stored millisecond. -/
  ahead : ∀ r ∈ clock, w.timestamp.toInt ≤ r.toInt

/-- The ID carries this worker's field and nothing later than its stored fields. -/
def IssuedBy (w : UuidWorker) (id : Int64) : Prop :=
  ∃ t n : Int, id.toInt = (t - epoch.toInt) * 2 ^ 22 + w.workerID.toInt * 2 ^ 12 + n ∧
    0 ≤ n ∧ n ≤ 4095 ∧ (t < w.timestamp.toInt ∨ t = w.timestamp.toInt ∧ n ≤ w.number.toInt)

/-- The same worker with its stored millisecond or its number moved on. -/
def UuidWorker.Later (w w' : UuidWorker) : Prop :=
  w'.workerID = w.workerID ∧ (w.timestamp.toInt < w'.timestamp.toInt ∨
    w.timestamp.toInt = w'.timestamp.toInt ∧ w.number.toInt < w'.number.toInt)

/-- Construction starts every worker behind any admissible clock. -/
theorem newUuidWorker_workerOk {w : UuidWorker} {clock : List Int64}
    (h : newUuidWorker w.workerID = .ok w) (hc : ClockOk clock) : WorkerOk w clock := by
  obtain ⟨hw, hlo, hhi⟩ := newUuidWorker_ok h
  have hnumber : w.number.toInt = 0 := by rw [hw, Int64.toInt_zero]
  have htimestamp : w.timestamp.toInt = 0 := by rw [hw, Int64.toInt_zero]
  refine ⟨⟨hlo, hhi⟩, by omega, hc, ?_⟩
  intro r hr
  have hlow := (hc.2 r hr).1
  rw [epoch_toInt] at hlow
  omega

/-- The ID composed from a worker's own stored fields is issued by it. -/
theorem UuidWorker.issuedBy_compose {w : UuidWorker}
    (hlo : epoch.toInt ≤ w.timestamp.toInt) (hhi : w.timestamp.toInt < epoch.toInt + 2 ^ 41)
    (hid : 0 ≤ w.workerID.toInt ∧ w.workerID.toInt ≤ 1023)
    (hn : 0 ≤ w.number.toInt ∧ w.number.toInt ≤ 4095) :
    IssuedBy w (w.compose w.timestamp) :=
  ⟨w.timestamp.toInt, w.number.toInt,
    UuidWorker.compose_toInt hlo hhi hid.1 hid.2 hn.1 hn.2, hn.1, hn.2, Or.inr ⟨rfl, le_rfl⟩⟩

/-- Everything issued before stays issued by the later worker. -/
theorem IssuedBy.of_later (h : IssuedBy w id) (hl : w.Later w') : IssuedBy w' id := by
  obtain ⟨t, n, hid, hn, hn', hlex⟩ := h
  obtain ⟨hw, hadv⟩ := hl
  refine ⟨t, n, by rw [hid, hw], hn, hn', ?_⟩
  omega

/-- The ID composed after moving on exceeds everything issued before. -/
theorem IssuedBy.lt_compose (h : IssuedBy w id) (hl : w.Later w')
    (hlo : epoch.toInt ≤ w'.timestamp.toInt) (hhi : w'.timestamp.toInt < epoch.toInt + 2 ^ 41)
    (hid : 0 ≤ w'.workerID.toInt ∧ w'.workerID.toInt ≤ 1023)
    (hn : 0 ≤ w'.number.toInt ∧ w'.number.toInt ≤ 4095) : id < w'.compose w'.timestamp := by
  obtain ⟨t, n, hold, hn0, hn1, hlex⟩ := h
  obtain ⟨hw, hadv⟩ := hl
  have hc := UuidWorker.compose_toInt hlo hhi hid.1 hid.2 hn.1 hn.2
  rw [Int64.lt_iff_toInt_lt, hc, hold, hw]
  omega

/-- Counting up inside the field of numbers. -/
theorem succ_toInt {n : Int64} (hlo : 0 ≤ n.toInt) (hhi : n.toInt ≤ 4095) :
    (n + 1).toInt = n.toInt + 1 := by
  rw [Int64.toInt_add, Int64.toInt_one, Int.bmod_eq_of_le (by omega) (by omega)]

/-- A call that is not exhausted keeps the worker well formed and moves it on, and
its ID is composed from the fields that it stores. -/
theorem WorkerOk.get (hok : WorkerOk w clock) (h : w.get clock = some (id, w', clock'))
    (hne : ¬ w.Exhausted clock) :
    WorkerOk w' clock' ∧ w.Later w' ∧ id = w'.compose w'.timestamp ∧
      epoch.toInt ≤ w'.timestamp.toInt ∧ w'.timestamp.toInt < epoch.toInt + 2 ^ 41 := by
  obtain ⟨now, rfl, rfl, hcase⟩ := UuidWorker.get_cases h hne
  obtain ⟨hsorted, hrange⟩ := hok.readings
  rw [List.pairwise_cons] at hsorted
  have hnow := hrange now (List.mem_cons_self ..)
  have hahead := hok.ahead now (List.mem_cons_self ..)
  have hclock : ClockOk clock' :=
    ⟨hsorted.2, fun r hr => hrange r (List.mem_cons_of_mem _ hr)⟩
  have hbehind : ∀ r ∈ clock', now.toInt ≤ r.toInt := fun r hr =>
    Int64.le_iff_toInt_le.mp (hsorted.1 r hr)
  have hnum := hok.number
  rcases hcase with ⟨rfl, hmax, rfl⟩ | ⟨hneq, rfl⟩
  · have hs := succ_toInt hnum.1 hnum.2
    rw [Int64.lt_iff_toInt_lt, numberMax_toInt, hs] at hmax
    refine ⟨⟨hok.workerID, ?_, hclock, hbehind⟩, ⟨rfl, Or.inr ⟨rfl, ?_⟩⟩, rfl, hnow⟩
    · rw [hs]
      omega
    · rw [hs]
      omega
  · have hlt : w.timestamp.toInt < now.toInt :=
      lt_of_le_of_ne hahead fun he => hneq (Int64.toInt.inj he)
    refine ⟨⟨hok.workerID, ?_, hclock, hbehind⟩, ⟨rfl, Or.inl hlt⟩, rfl, hnow⟩
    rw [Int64.toInt_zero]
    omega

/-- Well-formed workers, and issued IDs that increase below each worker's fields. -/
structure FleetOk {ι : Type*} (s : Fleet ι) : Prop where
  /-- Distinct workers keep distinct IDs. -/
  distinct : Function.Injective fun i => (s.worker i).workerID
  /-- Every worker is inside its field widths and behind its clock. -/
  worker : ∀ i, WorkerOk (s.worker i) (s.clock i)
  /-- Every returned ID is accounted for by the worker that returned it. -/
  issued : ∀ e ∈ s.issued, IssuedBy (s.worker e.1) e.2
  /-- The IDs of one worker increase strictly. -/
  increasing : s.IncreasingPerWorker

section

variable {ι : Type*} [DecidableEq ι]

/-- A constructed fleet has issued nothing. -/
theorem FleetOk.of_init {s : Fleet ι} (h : (fleetSystem ι).init s) : FleetOk s := by
  obtain ⟨hissued, hinj, hnew⟩ := h
  refine ⟨hinj, fun i => newUuidWorker_workerOk (hnew i).1 (hnew i).2, ?_, ?_⟩
  · simp [hissued]
  · simp [Fleet.IncreasingPerWorker, hissued]

/-- A call that is not exhausted preserves the fleet. -/
theorem FleetOk.step {s s' : Fleet ι} {i : ι} (hok : FleetOk s)
    (hne : ¬ (s.worker i).Exhausted (s.clock i)) (h : (fleetSystem ι).step s i = some s') :
    FleetOk s' := by
  obtain ⟨⟨id, w', clock'⟩, hget, rfl⟩ := Option.map_eq_some_iff.mp h
  obtain ⟨hw, hlater, rfl, hlo, hhi⟩ := (hok.worker i).get hget hne
  have hold : ∀ e ∈ s.issued, IssuedBy (update s.worker i w' e.1) e.2 := by
    intro e he
    by_cases hi : e.1 = i
    · rw [hi, update_self]
      exact (hi ▸ hok.issued e he).of_later hlater
    · rw [update_of_ne hi]
      exact hok.issued e he
  refine ⟨?_, ?_, ?_, ?_⟩
  · have hsame : (fun j => (update s.worker i w' j).workerID) =
        fun j => (s.worker j).workerID := by
      funext j
      by_cases hj : j = i
      · rw [hj, update_self, hlater.1]
      · rw [update_of_ne hj]
    simpa only [hsame] using hok.distinct
  · intro j
    by_cases hj : j = i
    · subst j
      simpa only [update_self] using hw
    · simpa only [update_of_ne hj] using hok.worker j
  · intro e he
    rcases List.mem_append.mp he with he | he
    · exact hold e he
    · obtain rfl := List.mem_singleton.mp he
      change IssuedBy (update s.worker i w' i) _
      rw [update_self]
      exact UuidWorker.issuedBy_compose hlo hhi hw.workerID hw.number
  · refine List.pairwise_append.mpr ⟨hok.increasing, List.pairwise_singleton .., ?_⟩
    intro a ha b hb hab
    obtain rfl := List.mem_singleton.mp hb
    have hissued := hok.issued a ha
    rw [hab] at hissued
    exact hissued.lt_compose hlater hlo hhi hw.workerID hw.number

/-- Workers with distinct IDs never account for the same returned ID. -/
theorem IssuedBy.workerID_eq (h : IssuedBy w id) (h' : IssuedBy w' id)
    (hw : 0 ≤ w.workerID.toInt ∧ w.workerID.toInt ≤ 1023)
    (hw' : 0 ≤ w'.workerID.toInt ∧ w'.workerID.toInt ≤ 1023) : w.workerID = w'.workerID := by
  obtain ⟨t, n, hid, hn, hn', _⟩ := h
  obtain ⟨t', m, hid', hm, hm', _⟩ := h'
  apply Int64.toInt.inj
  omega

/-- Per-worker order and distinct worker fields leave no room for a repeated ID. -/
theorem FleetOk.noneRepeated {s : Fleet ι} (hok : FleetOk s) : s.NoneRepeated := by
  refine List.Pairwise.map _ (fun _ _ h => h) (hok.increasing.imp_of_mem ?_)
  intro a b ha hb hab he
  by_cases hi : a.1 = b.1
  · exact Int64.lt_irrefl (he ▸ hab hi)
  · have hb' := hok.issued b hb
    rw [← he] at hb'
    exact hi (hok.distinct ((hok.issued a ha).workerID_eq hb' (hok.worker a.1).workerID
      (hok.worker b.1).workerID))

/-- In every run of a constructed fleet in which no call finds the numbers of its
millisecond used up, each worker's IDs increase and no ID is returned twice. -/
theorem fleet_ids_unique_unless_exhausted {start s : Fleet ι} {calls : List ι}
    (hstart : (fleetSystem ι).init start)
    (hguard : (fleetSystem ι).Guarded (fun t i => ¬ (t.worker i).Exhausted (t.clock i))
      start calls)
    (hrun : (fleetSystem ι).run start calls = some s) :
    s.IncreasingPerWorker ∧ s.NoneRepeated := by
  have hok : FleetOk s := (fleetSystem ι).run_guarded
    (fun _ _ _ hok hne hstep => hok.step hne hstep) (FleetOk.of_init hstart) hguard hrun
  exact ⟨hok.increasing, hok.noneRepeated⟩

end

/-- A single worker, constructed with the given ID, before the given readings. -/
def soloFleet (workerID : Int64) (clock : List Int64) : Fleet Unit :=
  ⟨fun _ => ⟨0, workerID, 0⟩, fun _ => clock, []⟩

/-- Two calls in one millisecond and one in the next meet every premise. -/
theorem fleet_ids_unique_three_calls :
    ∃ s, (fleetSystem Unit).run (soloFleet 5 [epoch, epoch, epoch + 1]) [(), (), ()] = some s ∧
      s.IncreasingPerWorker ∧ s.NoneRepeated := by
  obtain ⟨s, hs⟩ := Option.isSome_iff_exists.mp
    (show ((fleetSystem Unit).run (soloFleet 5 [epoch, epoch, epoch + 1]) [(), (), ()]).isSome
      by decide)
  refine ⟨s, hs, fleet_ids_unique_unless_exhausted ⟨rfl, ?_, ?_⟩ (by decide) hs⟩
  · exact injective_of_subsingleton _
  · refine fun _ => ⟨rfl, show ClockOk [epoch, epoch, epoch + 1] from ⟨by decide, ?_⟩⟩
    intro r hr
    simp only [List.mem_cons, List.not_mem_nil, or_false] at hr
    rcases hr with rfl | rfl | rfl <;> decide

private theorem soloFleet_step (issued : List (Unit × Int64))
    (h : w.get clock = some (id, w', clock')) :
    (fleetSystem Unit).step ⟨fun _ => w, fun _ => clock, issued⟩ () =
      some ⟨fun _ => w', fun _ => clock', issued ++ [((), id)]⟩ := by
  simp only [fleetSystem, h, Option.map_some, Option.some.injEq, Fleet.mk.injEq, and_true]
  exact ⟨funext fun _ => update_self .., funext fun _ => update_self ..⟩

/-- Calls that stay inside one millisecond only count its number up. -/
theorem soloFleet_run_within (workerID : Int64) (k : Nat) (n : Int64) (clock : List Int64)
    (issued : List (Unit × Int64)) (hn : 0 ≤ n.toInt) (hk : n.toInt + k ≤ 4095) :
    ∃ n' issued', n'.toInt = n.toInt + k ∧ (fleetSystem Unit).run
      ⟨fun _ => ⟨epoch, workerID, n⟩, fun _ => List.replicate k epoch ++ clock, issued⟩
      (List.replicate k ()) = some ⟨fun _ => ⟨epoch, workerID, n'⟩, fun _ => clock, issued'⟩ := by
  induction k generalizing n issued with
  | zero => exact ⟨n, issued, by simp, rfl⟩
  | succ k ih =>
    push_cast at hk
    have hs := succ_toInt hn (by omega)
    have hmax : ¬ numberMax < n + 1 := by
      rw [Int64.lt_iff_toInt_lt, numberMax_toInt, hs]
      omega
    have hget : (⟨epoch, workerID, n⟩ : UuidWorker).get (List.replicate (k + 1) epoch ++ clock) =
        some ((⟨epoch, workerID, n + 1⟩ : UuidWorker).compose epoch, ⟨epoch, workerID, n + 1⟩,
          List.replicate k epoch ++ clock) := by
      simp only [List.replicate_succ, List.cons_append, UuidWorker.get, ite_true, hmax, ite_false]
    obtain ⟨n', issued', hn', hrun⟩ := ih (n + 1)
      (issued ++ [((), (⟨epoch, workerID, n + 1⟩ : UuidWorker).compose epoch)])
      (by omega) (by rw [hs]; omega)
    refine ⟨n', issued', by rw [hn', hs]; push_cast; omega, ?_⟩
    exact (Core.System.run_cons_iff _).mpr ⟨_, soloFleet_step issued hget, hrun⟩

/-- All 4096 numbers of a millisecond, the call that has to spin, and one call more. -/
def exhaustingClock : List Int64 :=
  epoch :: (List.replicate 4095 epoch ++ [epoch, epoch + 1, epoch + 1])

/-- The reading order of the exhausting clock is admissible. -/
theorem exhaustingClock_ok : ClockOk exhaustingClock := by
  have hmem : ∀ r ∈ List.replicate 4095 epoch ++ [epoch, epoch + 1, epoch + 1],
      r = epoch ∨ r = epoch + 1 := by
    intro r hr
    rcases List.mem_append.mp hr with hr | hr
    · exact Or.inl (List.mem_replicate.mp hr).2
    · simp only [List.mem_cons, List.not_mem_nil, or_false] at hr
      tauto
  refine ⟨List.pairwise_cons.mpr ⟨?_, List.pairwise_append.mpr ⟨?_, by decide, ?_⟩⟩, ?_⟩
  · intro r hr
    rcases hmem r hr with rfl | rfl <;> decide
  · exact List.pairwise_replicate.mpr (Or.inr (by decide))
  · intro a ha b hb
    obtain ⟨_, rfl⟩ := List.mem_replicate.mp ha
    rcases hmem b (List.mem_append_right _ hb) with rfl | rfl <;> decide
  · intro r hr
    rcases List.mem_cons.mp hr with rfl | hr
    · decide
    · rcases hmem r hr with rfl | rfl <;> decide

/-- The spinning call of worker 1 and the call after it return the same ID, so the
worker neither increases nor avoids repetition. -/
theorem fleet_ids_repeat_after_exhaustion :
    (fleetSystem Unit).init (soloFleet 1 exhaustingClock) ∧
      ∃ s, (fleetSystem Unit).run (soloFleet 1 exhaustingClock)
          (() :: (List.replicate 4095 () ++ [(), ()])) = some s ∧
        ¬ s.IncreasingPerWorker ∧ ¬ s.NoneRepeated := by
  refine ⟨⟨rfl, injective_of_subsingleton _, fun _ => ⟨rfl, exhaustingClock_ok⟩⟩, ?_⟩
  let first : UuidWorker := ⟨epoch, 1, 0⟩
  let spun : UuidWorker := ⟨epoch, 1, numberMax + 1⟩
  let last : UuidWorker := ⟨epoch + 1, 1, 0⟩
  obtain ⟨n, issued, hn, hrun⟩ := soloFleet_run_within 1 4095 0 [epoch, epoch + 1, epoch + 1]
    [((), first.compose epoch)] (by decide) (by decide)
  obtain rfl : n = numberMax := Int64.toInt.inj (by rw [hn]; decide)
  have hspin : (⟨epoch, 1, numberMax⟩ : UuidWorker).get [epoch, epoch + 1, epoch + 1] =
      some (spun.compose (epoch + 1), spun, [epoch + 1]) := by decide
  have hlast : spun.get [epoch + 1] = some (last.compose (epoch + 1), last, []) := by decide
  have hsame : spun.compose (epoch + 1) = last.compose (epoch + 1) :=
    (UuidWorker.compose_number_overflow spun (epoch + 1) rfl).trans (by decide)
  rw [hsame] at hspin
  have hfirst : (⟨0, 1, 0⟩ : UuidWorker).get exhaustingClock =
      some (first.compose epoch, first, List.replicate 4095 epoch ++
        [epoch, epoch + 1, epoch + 1]) := rfl
  refine ⟨_, (Core.System.run_cons_iff _).mpr ⟨_, soloFleet_step [] hfirst,
    (Core.System.run_append_iff _).mpr ⟨_, hrun, (Core.System.run_cons_iff _).mpr
      ⟨_, soloFleet_step _ hspin, (Core.System.run_cons_iff _).mpr
        ⟨_, soloFleet_step _ hlast, rfl⟩⟩⟩⟩, ?_, ?_⟩
  · intro hinc
    have hpair := (List.pairwise_append.mp hinc).2.2 ((), last.compose (epoch + 1))
      (by simp) ((), last.compose (epoch + 1)) (by simp) rfl
    exact Int64.lt_irrefl hpair
  · intro hnodup
    rw [Fleet.NoneRepeated, List.map_append, List.map_append] at hnodup
    exact (List.nodup_append.mp hnodup).2.2 (last.compose (epoch + 1)) (by simp)
      (last.compose (epoch + 1)) (by simp) rfl

end Stardust.Uuid
