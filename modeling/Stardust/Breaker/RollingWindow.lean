import Mathlib.Algebra.Ring.Int.Defs
import Stardust.Core.Buckets

/-!
# The rolling window of the breaker

Each bucket counts the requests of its time and those among them that were accepted. Times and
durations are in nanoseconds. Every operation reads the clock once, and is absent where the
source panics: on a zero bucket time, or on an offset outside the buckets. Windows are kept and
advanced as any ring of buckets.
-/

namespace Stardust.Breaker

/-- The counts of one bucket. -/
@[ext]
structure Bucket where
  /-- The requests recorded as successes. -/
  accepts : Int
  /-- All requests recorded. -/
  total : Int
  deriving DecidableEq, Repr

instance : Zero Bucket := ⟨⟨0, 0⟩⟩

instance : Add Bucket := ⟨fun a b => ⟨a.accepts + b.accepts, a.total + b.total⟩⟩

/-- Counts are added field by field. -/
instance : AddCommMonoid Bucket where
  add_assoc a b c := Bucket.ext (Int.add_assoc ..) (Int.add_assoc ..)
  add_comm a b := Bucket.ext (Int.add_comm ..) (Int.add_comm ..)
  zero_add a := Bucket.ext (Int.zero_add _) (Int.zero_add _)
  add_zero a := Bucket.ext (Int.add_zero _) (Int.add_zero _)
  nsmul := nsmulRec

@[simp] theorem Bucket.add_accepts (a b : Bucket) : (a + b).accepts = a.accepts + b.accepts := rfl

@[simp] theorem Bucket.add_total (a b : Bucket) : (a + b).total = a.total + b.total := rfl

/-- A `rollingWindow`: its `bucketTime` is the length of one bucket. -/
abbrev RollingWindow : Type := Core.Buckets Bucket

/-- Empty buckets, current from `now` on. -/
def newRollingWindow (size : Nat) (bucketTime now : Int) : RollingWindow :=
  Core.Buckets.new size bucketTime now

/-- Add to both counts of the current bucket. -/
def RollingWindow.add (rw : RollingWindow) (accepts total now : Int) : Option RollingWindow :=
  (rw.advance now).bind fun rw =>
    if rw.offset < rw.buckets.length then
      some { rw with
        buckets := rw.buckets.modify rw.offset fun b => ⟨b.accepts + accepts, b.total + total⟩ }
    else none

/-- Both counts over all buckets. -/
def RollingWindow.sum (rw : RollingWindow) (now : Int) : Option ((Int × Int) × RollingWindow) :=
  (rw.advance now).map fun rw =>
    (rw.buckets.foldl (fun counts b => (counts.1 + b.accepts, counts.2 + b.total)) (0, 0), rw)

/-- A call on a window, with its clock reading. -/
inductive WindowCall
  | add (accepts total now : Int)
  | sum (now : Int)

/-- The window after a call. -/
def RollingWindow.call (rw : RollingWindow) : WindowCall → Option RollingWindow
  | .add accepts total now => rw.add accepts total now
  | .sum now => (rw.sum now).map Prod.snd

/-- What a call does to the buckets. -/
def WindowCall.touch : WindowCall → Core.Touch Bucket
  | .add accepts total now => ⟨now, some ⟨accepts, total⟩⟩
  | .sum now => ⟨now, none⟩

namespace RollingWindow

variable {rw : RollingWindow}

/-- Both counts of a list of buckets are its sum. -/
theorem foldl_counts (buckets : List Bucket) (counts : Int × Int) :
    buckets.foldl (fun counts b => (counts.1 + b.accepts, counts.2 + b.total)) counts =
      (counts.1 + buckets.sum.accepts, counts.2 + buckets.sum.total) := by
  induction buckets generalizing counts with
  | nil => exact Prod.ext (add_zero _).symm (add_zero _).symm
  | cons b buckets ih =>
    rw [List.foldl_cons, ih, List.sum_cons]
    simp only [Bucket.add_accepts, Bucket.add_total, Int.add_assoc]

/-- A read of a sound window answers with the sum of what the ring has after its advance. -/
theorem sum_spec (h : rw.Sound) (now : Int) :
    ∃ rw', rw.sum now = some ((rw'.buckets.sum.accepts, rw'.buckets.sum.total), rw') ∧ rw'.Sound ∧
      rw'.ring = rw.ring.advance now := by
  obtain ⟨rw', hadvance, hsound, hring⟩ := h.advance now
  refine ⟨rw', ?_, hsound, hring⟩
  rw [RollingWindow.sum, hadvance, Option.map_some, foldl_counts, zero_add, zero_add]

/-- A call that returns has advanced over buckets with a length. -/
theorem sound_of_call {c : WindowCall} {rw' : RollingWindow} (h : rw.Fits)
    (hcall : rw.call c = some rw') : rw.Sound := by
  cases c with
  | add accepts total now =>
    obtain ⟨advanced, hadvance, -⟩ := Option.bind_eq_some_iff.mp hcall
    exact h.sound_of_advance hadvance
  | sum now =>
    obtain ⟨read, hsum, -⟩ := Option.map_eq_some_iff.mp hcall
    obtain ⟨advanced, hadvance, -⟩ := Option.map_eq_some_iff.mp hsum
    exact h.sound_of_advance hadvance

end RollingWindow

/-- Windows as rings of buckets. -/
def windows : Core.Bucketed RollingWindow WindowCall Bucket where
  ring := Core.Buckets.ring
  call := RollingWindow.call
  touch := WindowCall.touch
  Sound := Core.Buckets.Sound
  call_spec rw c h := by
    cases c with
    | add accepts total now =>
      obtain ⟨rw', hadvance, hsound, hring⟩ := h.advance now
      have hcurrent : rw'.offset < rw'.buckets.length := hsound.lawful.current
      refine ⟨{ rw' with buckets := rw'.buckets.modify rw'.offset (· + ⟨accepts, total⟩) }, ?_,
        hsound.addCurrent ⟨accepts, total⟩, ?_⟩
      · rw [RollingWindow.call, RollingWindow.add, hadvance, Option.bind_some, if_pos hcurrent]
        rfl
      · exact congrArg (Core.Rolling.addCurrent · ⟨accepts, total⟩) hring
    | sum now =>
      obtain ⟨rw', hsum, hsound, hring⟩ := RollingWindow.sum_spec h now
      exact ⟨rw', by rw [RollingWindow.call, hsum, Option.map_some], hsound, hring⟩

end Stardust.Breaker
