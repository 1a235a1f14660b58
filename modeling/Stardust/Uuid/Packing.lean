import Mathlib.Data.Prod.Lex
import Stardust.Uuid.Worker

/-!
# Taking IDs apart

`Unmarshal` reads the fields of an ID back with shifts and masks. On offsets, worker IDs and
numbers inside their fields it undoes the packing, and IDs are ordered as their fields are.
-/

namespace Stardust.Uuid

/-- The map that `Unmarshal` returns, by its keys. -/
structure IdParts where
  id : Int64
  /-- In Unix seconds. -/
  time : Int64
  worker : Int64
  number : Int64
  deriving DecidableEq, Repr

/-- The fields of an ID; those of the worker are not read. In the source, shifts and masks bind
alike and to the left. -/
def UuidWorker.unmarshal (_w : UuidWorker) (id : Int64) : IdParts :=
  let t := ((id >>> timeShift) + epoch) / 1000
  let number := id &&& ((1 : Int64) <<< workerShift - 1)
  let worker := (id &&& ((1 : Int64) <<< timeShift - 1)) >>> workerShift
  { id := id, time := t, worker := worker, number := number }

/-- An offset, a worker ID and a number, each inside its field. -/
structure Stamp where
  offset : Int64
  worker : Int64
  number : Int64
  offset_range : 0 ≤ offset.toInt ∧ offset.toInt < 2 ^ 41
  worker_range : 0 ≤ worker.toInt ∧ worker.toInt < 1024
  number_range : 0 ≤ number.toInt ∧ number.toInt < 4096

namespace Stamp

variable (s s' : Stamp)

/-- The ID as `Get` composes it. -/
def id : Int64 := packId s.offset s.worker s.number

/-- Stamps are compared by their offsets, then by their workers, then by their numbers. -/
def key : Int ×ₗ Int ×ₗ Int := toLex (s.offset.toInt, toLex (s.worker.toInt, s.number.toInt))

/-- The fields do not overlap. -/
theorem id_toInt :
    s.id.toInt = s.offset.toInt * 2 ^ 22 + s.worker.toInt * 2 ^ 12 + s.number.toInt := by
  have hw := s.worker_range
  have hn := s.number_range
  exact packId_toInt s.offset_range (by omega) (by omega)

private theorem id_nonneg : 0 ≤ s.id.toInt := by
  have ho := s.offset_range
  have hw := s.worker_range
  have hn := s.number_range
  rw [id_toInt]
  omega

variable {s s'}

private theorem ext_toInt (ho : s.offset.toInt = s'.offset.toInt)
    (hw : s.worker.toInt = s'.worker.toInt) (hn : s.number.toInt = s'.number.toInt) : s = s' := by
  cases s
  cases s'
  simp only [Stamp.mk.injEq]
  exact ⟨Int64.toInt.inj ho, Int64.toInt.inj hw, Int64.toInt.inj hn⟩

private theorem id_lt_id_iff : s.id < s'.id ↔ s.key < s'.key := by
  have hw := s.worker_range
  have hw' := s'.worker_range
  have hn := s.number_range
  have hn' := s'.number_range
  rw [Int64.lt_iff_toInt_lt, id_toInt, id_toInt, key, key]
  simp only [Prod.Lex.toLex_lt_toLex]
  omega

variable (s)

private theorem number_unmarshal (w : UuidWorker) : (w.unmarshal s.id).number = s.number := by
  have hn := s.number_range
  have hmask : ((1 : Int64) <<< workerShift - 1).toInt = 2 ^ 12 - 1 := by decide
  apply Int64.toInt.inj
  change (s.id &&& ((1 : Int64) <<< workerShift - 1)).toInt = _
  rw [Core.toInt_and_ones hmask s.id_nonneg, id_toInt]
  omega

private theorem worker_unmarshal (w : UuidWorker) : (w.unmarshal s.id).worker = s.worker := by
  have hw := s.worker_range
  have hn := s.number_range
  have hmask : ((1 : Int64) <<< timeShift - 1).toInt = 2 ^ 22 - 1 := by decide
  apply Int64.toInt.inj
  change ((s.id &&& ((1 : Int64) <<< timeShift - 1)) >>> workerShift).toInt = _
  rw [Core.toInt_shiftRight workerShift_amount, Core.toInt_and_ones hmask s.id_nonneg, id_toInt]
  omega

/-- The sum of offset and epoch is far from any overflow, so that the division rounds down. -/
theorem time_unmarshal (w : UuidWorker) :
    (w.unmarshal s.id).time.toInt = (s.offset.toInt + epoch.toInt) / 1000 := by
  have ho := s.offset_range
  have hw := s.worker_range
  have hn := s.number_range
  have hshift : (s.id >>> timeShift).toInt = s.offset.toInt := by
    rw [Core.toInt_shiftRight timeShift_amount, id_toInt]
    omega
  have hsum : ((s.id >>> timeShift) + epoch).toInt = s.offset.toInt + epoch.toInt := by
    rw [Int64.toInt_add, hshift, epoch_toInt, Int.bmod_eq_of_le (by omega) (by omega)]
  change (((s.id >>> timeShift) + epoch) / 1000).toInt = _
  rw [Int64.toInt_div_of_ne_right _ _ (by decide), hsum, epoch_toInt]
  exact Int.tdiv_eq_ediv_of_nonneg (by omega)

end Stamp

/-- `Unmarshal` returns the worker ID and the number of an ID and its time in whole seconds; the
packing is injective, never negative, and orders IDs by offset, worker ID and number. -/
theorem snowflake_packing :
    (∀ (w : UuidWorker) (s : Stamp), (w.unmarshal s.id).id = s.id ∧
      (w.unmarshal s.id).worker = s.worker ∧ (w.unmarshal s.id).number = s.number ∧
      (w.unmarshal s.id).time.toInt = (s.offset.toInt + epoch.toInt) / 1000) ∧
    Function.Injective Stamp.id ∧ (∀ s : Stamp, 0 ≤ s.id) ∧
    ∀ s s' : Stamp, s.id < s'.id ↔ s.key < s'.key := by
  refine ⟨?_, ?_, ?_, fun s s' => Stamp.id_lt_id_iff⟩
  · intro w s
    exact ⟨rfl, s.worker_unmarshal w, s.number_unmarshal w, s.time_unmarshal w⟩
  · intro s s' heq
    have hoffset : s.offset.toInt = s'.offset.toInt := by
      have hid := congrArg Int64.toInt heq
      have hw := s.worker_range
      have hw' := s'.worker_range
      have hn := s.number_range
      have hn' := s'.number_range
      rw [Stamp.id_toInt, Stamp.id_toInt] at hid
      omega
    have hworker : s.worker = s'.worker := by
      rw [← s.worker_unmarshal ⟨0, 0, 0⟩, heq, s'.worker_unmarshal]
    have hnumber : s.number = s'.number := by
      rw [← s.number_unmarshal ⟨0, 0, 0⟩, heq, s'.number_unmarshal]
    exact Stamp.ext_toInt hoffset (congrArg _ hworker) (congrArg _ hnumber)
  · intro s
    rw [Int64.le_iff_toInt_le, Int64.toInt_zero]
    exact s.id_nonneg

example : UuidWorker.unmarshal ⟨0, 0, 0⟩ (packId 5000 1023 4095) =
    ⟨packId 5000 1023 4095, 1652751582, 1023, 4095⟩ := by decide

end Stardust.Uuid
