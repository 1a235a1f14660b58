import Stardust.Core.BitFields

/-!
# The snowflake worker

One worker packs a millisecond offset, its worker ID, and a per-millisecond number
into a signed 64-bit ID. Clock readings are explicit inputs: `get` consumes the
first one, and the busy loop of the exhausted branch consumes as many further ones
as it needs. The loop leaves the stored millisecond and the number as they were.
-/

namespace Stardust.Uuid

/-- Width of the worker ID field. -/
def workerBits : Int64 := 10

/-- Width of the number field. -/
def numberBits : Int64 := 12

/-- The largest worker ID, as the source computes it from the field width. -/
def workerMax : Int64 := (-1) ^^^ ((-1 : Int64) <<< workerBits)

/-- The largest number inside one millisecond. -/
def numberMax : Int64 := (-1) ^^^ ((-1 : Int64) <<< numberBits)

/-- Position of the millisecond offset. -/
def timeShift : Int64 := workerBits + numberBits

/-- Position of the worker ID. -/
def workerShift : Int64 := numberBits

/-- The custom epoch in Unix milliseconds. -/
def epoch : Int64 := 1652751577000

/-- The mutable fields of one worker; the mutex makes each `Get` atomic. -/
structure UuidWorker where
  /-- The millisecond in which the number was last reset. -/
  timestamp : Int64
  /-- The worker ID, fixed at construction. -/
  workerID : Int64
  /-- The number last used inside `timestamp`. -/
  number : Int64
  deriving DecidableEq, Repr

/-- The constructor rejects worker IDs outside the field. -/
def newUuidWorker (workerID : Int64) : Except String UuidWorker :=
  if workerID < 0 ∨ workerMax < workerID then .error "worker ID excess of quantity"
  else .ok ⟨0, workerID, 0⟩

/-- The ID composed from a clock reading and the worker's fields. -/
def UuidWorker.compose (w : UuidWorker) (now : Int64) : Int64 :=
  (now - epoch) <<< timeShift ||| w.workerID <<< workerShift ||| w.number

/-- Re-read the clock until it has passed `timestamp`; absent while still spinning. -/
def spin (timestamp : Int64) : Int64 → List Int64 → Option (Int64 × List Int64)
  | now, [] => if now ≤ timestamp then none else some (now, [])
  | now, reading :: clock =>
    if now ≤ timestamp then spin timestamp reading clock else some (now, reading :: clock)

/-- One `Get` call on the worker's remaining clock readings: the returned ID, the
worker afterwards, and the readings left. -/
def UuidWorker.get (w : UuidWorker) : List Int64 → Option (Int64 × UuidWorker × List Int64)
  | [] => none
  | now :: clock =>
    if w.timestamp = now then
      let w := { w with number := w.number + 1 }
      if numberMax < w.number then
        (spin w.timestamp now clock).map fun (now, clock) => (w.compose now, w, clock)
      else some (w.compose now, w, clock)
    else
      let w := { w with number := 0, timestamp := now }
      some (w.compose now, w, clock)

@[simp] theorem numberMax_toInt : numberMax.toInt = 4095 := by decide

@[simp] theorem workerMax_toInt : workerMax.toInt = 1023 := by decide

@[simp] theorem epoch_toInt : epoch.toInt = 1652751577000 := by decide

/-- A constructed worker carries an in-range ID and no millisecond yet. -/
theorem newUuidWorker_ok {workerID : Int64} {w : UuidWorker}
    (h : newUuidWorker workerID = .ok w) :
    w = ⟨0, workerID, 0⟩ ∧ 0 ≤ workerID.toInt ∧ workerID.toInt ≤ 1023 := by
  unfold newUuidWorker at h
  split at h
  · cases h
  · rename_i hbad
    cases h
    simp only [Int64.lt_iff_toInt_lt, workerMax_toInt, not_or, not_lt] at hbad
    exact ⟨rfl, by simpa using hbad.1, hbad.2⟩

/-- The three fields of an ID OR-ed together. -/
def packId (offset workerID number : Int64) : Int64 :=
  offset <<< timeShift ||| workerID <<< workerShift ||| number

/-- The fields are packed. -/
theorem UuidWorker.compose_eq_packId (w : UuidWorker) (now : Int64) :
    w.compose now = packId (now - epoch) w.workerID w.number := rfl

/-- The time stands above 22 bits. -/
theorem timeShift_amount : (timeShift.toBitVec.smod 64).toNat = 22 := by decide

/-- The worker ID stands above 12 bits. -/
theorem workerShift_amount : (workerShift.toBitVec.smod 64).toNat = 12 := by decide

/-- Offsets, worker IDs, and numbers inside their fields are read back from the ID
as one mixed-radix integer. -/
theorem packId_toInt {offset workerID number : Int64}
    (ho : 0 ≤ offset.toInt ∧ offset.toInt < 2 ^ 41)
    (hw : 0 ≤ workerID.toInt ∧ workerID.toInt ≤ 1023)
    (hn : 0 ≤ number.toInt ∧ number.toInt ≤ 4095) :
    (packId offset workerID number).toInt =
      offset.toInt * 2 ^ 22 + workerID.toInt * 2 ^ 12 + number.toInt := by
  have ht : (offset <<< timeShift).toInt = offset.toInt * 2 ^ 22 :=
    Core.toInt_shiftLeft timeShift_amount ho.1 (by omega)
  have hwi : (workerID <<< workerShift).toInt = workerID.toInt * 2 ^ 12 :=
    Core.toInt_shiftLeft workerShift_amount hw.1 (by omega)
  have htw : (offset <<< timeShift ||| workerID <<< workerShift).toInt =
      offset.toInt * 2 ^ 22 + workerID.toInt * 2 ^ 12 := by
    rw [Core.toInt_or (n := 22) ht (by omega) (by omega) (by omega) (by omega), ht, hwi]
  have hq : (offset <<< timeShift ||| workerID <<< workerShift).toInt =
      (offset.toInt * 2 ^ 10 + workerID.toInt) * 2 ^ 12 := by
    rw [htw]
    omega
  rw [packId, Core.toInt_or (n := 12) hq (by omega) hn.1 (by omega) (by omega), htw]

/-- Whatever the offset, the fields are added up in the unsigned reading of an ID. -/
theorem packId_toNat (offset : Int64) {workerID number : Int64}
    (hw : 0 ≤ workerID.toInt ∧ workerID.toInt ≤ 1023)
    (hn : 0 ≤ number.toInt ∧ number.toInt ≤ 4095) :
    ((packId offset workerID number).toBitVec.toNat : Int) =
      (offset <<< timeShift).toBitVec.toNat + workerID.toInt * 2 ^ 12 + number.toInt := by
  have hshift : (workerID <<< workerShift).toInt = workerID.toInt * 2 ^ 12 :=
    Core.toInt_shiftLeft workerShift_amount hw.1 (by omega)
  have hvw := Core.toNat_toBitVec_of_nonneg (x := workerID <<< workerShift) (by omega)
  have hvn := Core.toNat_toBitVec_of_nonneg hn.1
  have htime := Core.two_pow_dvd_shiftLeft timeShift_amount (by decide) offset
  have hor : (offset <<< timeShift ||| workerID <<< workerShift).toBitVec.toNat =
      (offset <<< timeShift).toBitVec.toNat + (workerID <<< workerShift).toBitVec.toNat :=
    Core.toNat_or htime (by omega)
  rw [packId, Core.toNat_or (n := 12) (by omega) (by omega), hor, Nat.cast_add, Nat.cast_add, hvw,
    hvn, hshift]

/-- The fields do not overlap: an ID determines the part of the offset that it keeps, the worker
ID and the number. -/
theorem packId_inj {offset offset' workerID workerID' number number' : Int64}
    (hw : 0 ≤ workerID.toInt ∧ workerID.toInt ≤ 1023)
    (hw' : 0 ≤ workerID'.toInt ∧ workerID'.toInt ≤ 1023)
    (hn : 0 ≤ number.toInt ∧ number.toInt ≤ 4095)
    (hn' : 0 ≤ number'.toInt ∧ number'.toInt ≤ 4095) :
    packId offset workerID number = packId offset' workerID' number' ↔
      offset <<< timeShift = offset' <<< timeShift ∧ workerID = workerID' ∧ number = number' := by
  constructor
  · intro heq
    have hsum := packId_toNat offset hw hn
    rw [heq, packId_toNat offset' hw' hn'] at hsum
    have htime := Core.two_pow_dvd_shiftLeft timeShift_amount (by decide) offset
    have htime' := Core.two_pow_dvd_shiftLeft timeShift_amount (by decide) offset'
    refine ⟨?_, Int64.toInt.inj (by omega), Int64.toInt.inj (by omega)⟩
    exact Int64.toBitVec.inj (BitVec.eq_of_toNat_eq (by omega))
  · rintro ⟨htime, rfl, rfl⟩
    rw [packId, packId, htime]

/-- Readings of the clock inside the range of offsets. -/
theorem UuidWorker.compose_toInt {w : UuidWorker} {now : Int64}
    (hlo : epoch.toInt ≤ now.toInt) (hhi : now.toInt < epoch.toInt + 2 ^ 41)
    (hw : 0 ≤ w.workerID.toInt) (hw' : w.workerID.toInt ≤ 1023)
    (hn : 0 ≤ w.number.toInt) (hn' : w.number.toInt ≤ 4095) :
    (w.compose now).toInt =
      (now.toInt - epoch.toInt) * 2 ^ 22 + w.workerID.toInt * 2 ^ 12 + w.number.toInt := by
  simp only [epoch_toInt] at hlo hhi ⊢
  have hsub : (now - epoch).toInt = now.toInt - 1652751577000 := by
    rw [Int64.toInt_sub, epoch_toInt, Int.bmod_eq_of_le (by omega) (by omega)]
  rw [w.compose_eq_packId, packId_toInt (by omega) ⟨hw, hw'⟩ ⟨hn, hn'⟩, hsub]

/-- One number past its field is OR-ed into the worker ID: the ID is the first one of
the millisecond for the worker whose ID has the lowest bit set. -/
theorem UuidWorker.compose_number_overflow (w : UuidWorker) (now : Int64)
    (h : w.number = numberMax + 1) :
    w.compose now = { w with workerID := w.workerID ||| 1, number := 0 }.compose now := by
  have hbit : numberMax + 1 = (1 : Int64) <<< workerShift := by decide
  have hdistrib : w.workerID <<< workerShift ||| (1 : Int64) <<< workerShift =
      (w.workerID ||| 1) <<< workerShift := by
    apply Int64.toBitVec.inj
    simp only [Int64.toBitVec_or, Int64.toBitVec_shiftLeft, BitVec.shiftLeft_eq']
    exact (BitVec.shiftLeft_or_distrib _ _ _).symm
  simp only [UuidWorker.compose, h, hbit, Int64.or_assoc, hdistrib, Int64.or_zero]

end Stardust.Uuid
