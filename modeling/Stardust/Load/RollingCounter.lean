import Mathlib.Data.Rat.Floor
import Stardust.Core.Buckets

/-!
# The rolling counter of the shedder

Bucket contents are kept in exact rational arithmetic, times and durations in
nanoseconds. Every operation reads the clock once, and is absent where the source
panics: on a zero interval, or on an offset outside the buckets. Counters are kept and
advanced as any ring of buckets.
-/

namespace Stardust.Load

/-- A `rollingCounter`, with the amounts by bucket. -/
abbrev RollingCounter : Type := Core.Buckets ℚ

/-- Empty buckets, current from `now` on. -/
def newRollingCounter (size : Nat) (interval now : Int) : RollingCounter :=
  Core.Buckets.new size interval now

variable (rc : RollingCounter)

/-- Add an amount to the current bucket. -/
def RollingCounter.add (val : ℚ) (now : Int) : Option RollingCounter :=
  (rc.advance now).bind fun rc =>
    if rc.offset < rc.buckets.length then
      some { rc with buckets := rc.buckets.modify rc.offset (· + val) }
    else none

/-- The mean of the positive buckets, zero without any. -/
def RollingCounter.avg (now : Int) : Option (ℚ × RollingCounter) :=
  (rc.advance now).map fun rc =>
    let positive := rc.buckets.filter (0 < ·)
    (if positive.length = 0 then 0 else positive.sum / positive.length, rc)

/-- The largest bucket, at least zero. -/
def RollingCounter.max (now : Int) : Option (ℚ × RollingCounter) :=
  (rc.advance now).map fun rc => (rc.buckets.foldl (fun m b => if b > m then b else m) 0, rc)

/-- A call on a counter, with its clock reading. -/
inductive CounterCall
  | add (val : ℚ) (now : Int)
  | avg (now : Int)
  | max (now : Int)

/-- The counter after a call. -/
def RollingCounter.call : CounterCall → Option RollingCounter
  | .add val now => rc.add val now
  | .avg now => (rc.avg now).map Prod.snd
  | .max now => (rc.max now).map Prod.snd

/-- What a call does to the buckets. -/
def CounterCall.touch : CounterCall → Core.Touch ℚ
  | .add val now => ⟨now, some val⟩
  | .avg now => ⟨now, none⟩
  | .max now => ⟨now, none⟩

/-- Counters as rings of buckets. -/
def counters : Core.Bucketed RollingCounter CounterCall ℚ where
  ring := Core.Buckets.ring
  call := RollingCounter.call
  touch := CounterCall.touch
  Sound := Core.Buckets.Sound
  call_spec rc c h := by
    cases c with
    | add val now =>
      obtain ⟨rc', hadvance, hsound, hring⟩ := h.advance now
      have hcurrent : rc'.offset < rc'.buckets.length := hsound.lawful.current
      refine ⟨{ rc' with buckets := rc'.buckets.modify rc'.offset (· + val) }, ?_,
        hsound.addCurrent val, ?_⟩
      · rw [RollingCounter.call, RollingCounter.add, hadvance, Option.bind_some, if_pos hcurrent]
      · exact congrArg (Core.Rolling.addCurrent · val) hring
    | avg now =>
      obtain ⟨rc', hadvance, hsound, hring⟩ := h.advance now
      exact ⟨rc', by simp [RollingCounter.call, RollingCounter.avg, hadvance], hsound, hring⟩
    | max now =>
      obtain ⟨rc', hadvance, hsound, hring⟩ := h.advance now
      exact ⟨rc', by simp [RollingCounter.call, RollingCounter.max, hadvance], hsound, hring⟩

end Stardust.Load
