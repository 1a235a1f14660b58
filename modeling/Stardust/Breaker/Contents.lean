import Stardust.Breaker.RollingWindow
import Stardust.Load.RollingCounter

/-!
# What the rolling windows contain

The window of the breaker and the counter of the shedder keep every amount for all buckets but
one, and count it once. They let go of it in time only if no call drops a part of a bucket: an
advance sets the time of the last move to the clock, wherever in a bucket the clock stands.
-/

namespace Stardust.Breaker

open Stardust.Core Stardust.Load

variable (size : Nat)

/-- A new counter, nothing recorded. -/
def counterStart (interval now : Int) : RollingCounter × Trace ℚ :=
  (newRollingCounter size interval now, Trace.start size interval now)

/-- A new window, nothing recorded. -/
def windowStart (bucketTime now : Int) : RollingWindow × Trace Bucket :=
  (newRollingWindow size bucketTime now, Trace.start size bucketTime now)

/-- The calls on a new counter. -/
def counterRuns (interval now : Int) : System (RollingCounter × Trace ℚ) CounterCall :=
  counters.recorded (counterStart size interval now)

/-- The calls on a new window. -/
def windowRuns (bucketTime now : Int) : System (RollingWindow × Trace Bucket) WindowCall :=
  windows.recorded (windowStart size bucketTime now)

/-- In every run of calls in the order of time, each bucket is the sum of the amounts numbered in
it, and every amount recorded in the last `size - 1` bucket lengths is counted exactly once. -/
theorem amounts_kept_exactly_once (b now : Int) (hsize : 1 ≤ size) (hb : 0 < b) :
    (∀ calls, counters.InOrder now calls →
      ∃ s, (counterRuns size b now).run (counterStart size b now) calls = some s ∧
        s.2.Explains s.1.ring ∧ s.2.KeepsOnce size b) ∧
    (∀ calls, windows.InOrder now calls →
      ∃ s, (windowRuns size b now).run (windowStart size b now) calls = some s ∧
        s.2.Explains s.1.ring ∧ s.2.KeepsOnce size b) := by
  constructor
  · intro calls horder
    exact Bucketed.run_start_keepsOnce (Buckets.Sound.new hsize hb now) rfl hsize hb horder
  · intro calls horder
    exact Bucketed.run_start_keepsOnce (Buckets.Sound.new hsize hb now) rfl hsize hb horder

/-- A counter and a window of two buckets of ten, with an amount recorded at the start and another
in the second bucket, read at the end of that bucket. -/
theorem amounts_kept_exactly_once_in_two_buckets :
    (∃ s, (counterRuns 2 10 0).run (counterStart 2 10 0)
        [.add 5 0, .add 3 10, .max 10] = some s ∧
      s.2.Explains s.1.ring ∧ s.2.KeepsOnce 2 10) ∧
    (∃ s, (windowRuns 2 10 0).run (windowStart 2 10 0) [.add 1 1 0, .add 0 1 10, .sum 10] = some s ∧
      s.2.Explains s.1.ring ∧ s.2.KeepsOnce 2 10) :=
  have h := amounts_kept_exactly_once 2 10 0 (by decide) (by decide)
  ⟨h.1 _ ⟨by decide, by decide, by decide, trivial⟩,
    h.2 _ ⟨by decide, by decide, by decide, trivial⟩⟩

/-- The counter's advance to the time of a call drops no part of a bucket. -/
def CounterWhole (s : RollingCounter × Trace ℚ) (c : CounterCall) : Prop :=
  s.1.ring.WholeIntervals c.touch.now

/-- The window's advance to the time of a call drops no part of a bucket. -/
def WindowWhole (s : RollingWindow × Trace Bucket) (c : WindowCall) : Prop :=
  s.1.ring.WholeIntervals c.touch.now

instance (s : RollingCounter × Trace ℚ) (c : CounterCall) : Decidable (CounterWhole s c) :=
  inferInstanceAs (Decidable (s.1.ring.WholeIntervals c.touch.now))

instance (s : RollingWindow × Trace Bucket) (c : WindowCall) : Decidable (WindowWhole s c) :=
  inferInstanceAs (Decidable (s.1.ring.WholeIntervals c.touch.now))

/-- In every run of calls in the order of time that drop no part of a bucket, no amount is counted
`size` bucket lengths after it was recorded. -/
theorem amounts_forgotten_on_time (b now : Int) (hsize : 1 ≤ size) (hb : 0 < b) :
    (∀ calls, counters.InOrder now calls →
      (counterRuns size b now).Guarded CounterWhole (counterStart size b now) calls →
      ∃ s, (counterRuns size b now).run (counterStart size b now) calls = some s ∧
        s.2.Explains s.1.ring ∧ s.2.ForgetsOnTime size b) ∧
    (∀ calls, windows.InOrder now calls →
      (windowRuns size b now).Guarded WindowWhole (windowStart size b now) calls →
      ∃ s, (windowRuns size b now).run (windowStart size b now) calls = some s ∧
        s.2.Explains s.1.ring ∧ s.2.ForgetsOnTime size b) := by
  constructor
  · intro calls horder hwhole
    exact Bucketed.run_start_forgetsOnTime (Buckets.Sound.new hsize hb now) rfl hsize hb
      horder hwhole
  · intro calls horder hwhole
    exact Bucketed.run_start_forgetsOnTime (Buckets.Sound.new hsize hb now) rfl hsize hb
      horder hwhole

/-- Reads at the end of the first bucket and after both of them. -/
theorem amounts_forgotten_on_time_in_two_buckets :
    (∃ s, (counterRuns 2 10 0).run (counterStart 2 10 0) [.add 5 0, .avg 10, .max 20] = some s ∧
      s.2.Explains s.1.ring ∧ s.2.ForgetsOnTime 2 10) ∧
    (∃ s, (windowRuns 2 10 0).run (windowStart 2 10 0) [.add 1 1 0, .sum 10, .sum 20] = some s ∧
      s.2.Explains s.1.ring ∧ s.2.ForgetsOnTime 2 10) :=
  have h := amounts_forgotten_on_time 2 10 0 (by decide) (by decide)
  ⟨h.1 _ ⟨by decide, by decide, by decide, trivial⟩ (by decide),
    h.2 _ ⟨by decide, by decide, by decide, trivial⟩ (by decide)⟩

/-- An amount recorded at 0 in two buckets of ten is still counted at 20: the read at 19 moves the
ring by one bucket, and the other nine of the nineteen are lost. -/
theorem amounts_counted_after_window :
    (∃ s, (counterRuns 2 10 0).run (counterStart 2 10 0) [.add 5 0, .avg 19, .max 20] = some s ∧
      counters.InOrder 0 [.add 5 0, .avg 19, .max 20] ∧ s.1.buckets = [5, 0] ∧
        s.2.log = [⟨0, 5⟩] ∧ s.2.clock = 20 ∧ ¬ s.2.ForgetsOnTime 2 10) ∧
    (∃ s, (windowRuns 2 10 0).run (windowStart 2 10 0) [.add 1 1 0, .sum 19, .sum 20] = some s ∧
      windows.InOrder 0 [.add 1 1 0, .sum 19, .sum 20] ∧ s.1.buckets = [⟨1, 1⟩, ⟨0, 0⟩] ∧
        s.2.log = [⟨0, ⟨1, 1⟩⟩] ∧ s.2.clock = 20 ∧ ¬ s.2.ForgetsOnTime 2 10) := by
  constructor
  · refine ⟨_, rfl, ⟨by decide, by decide, by decide, trivial⟩, ?_, rfl, rfl, ?_⟩
    · decide +kernel
    · intro h
      exact absurd (h 0 ⟨0, 5⟩ rfl (by decide)) (by decide)
  · refine ⟨_, rfl, ⟨by decide, by decide, by decide, trivial⟩, rfl, rfl, rfl, ?_⟩
    intro h
    exact absurd (h 0 ⟨0, ⟨1, 1⟩⟩ rfl (by decide)) (by decide)

end Stardust.Breaker
