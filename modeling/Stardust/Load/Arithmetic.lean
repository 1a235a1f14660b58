import Stardust.Load.Shedder

/-!
# The arithmetic of the shedder

The constructor divides the window by the number of buckets, and every later call on a counter
divides by the quotient. The options check neither. A counter whose buckets have a length keeps its
offset among its buckets, whatever the sign of the length is and whatever the clocks are.
-/

namespace Stardust.Load

open Stardust.Core AdaptiveShedder

/-- What is called on a shedder and on its promises, with the clock readings. -/
inductive ShedderCall where
  /-- `Allow`; a request that is dropped is dropped at `now`. -/
  | allow (r : Readings) (now : Int)
  /-- `Pass`, on a promise made at `start`. -/
  | pass (start now passNow rtNow : Int)
  | fail
  deriving DecidableEq

namespace AdaptiveShedder

/-- `Allow`: whether the request is admitted. -/
def allow (as : AdaptiveShedder) (r : Readings) (now : Int) : Option (Bool × AdaptiveShedder) :=
  match as.systemOverloaded r with
  | (false, as) => some (true, as.acquire)
  | (true, as) =>
    (as.exceedsMaxFlight r).map fun (drop, as) =>
      if drop then (false, as.drop now) else (true, as.acquire)

/-- One call on the shedder, absent where it panics. -/
def call (as : AdaptiveShedder) : ShedderCall → Option AdaptiveShedder
  | .allow r now => (as.allow r now).map Prod.snd
  | .pass start now passNow rtNow => as.release.recordPass start now passNow rtNow
  | .fail => some as.release

end AdaptiveShedder

/-- The calls on a new shedder. -/
def shedders (opts : List ShedderOption) : Core.System AdaptiveShedder ShedderCall where
  init as := ∃ now cpuSeconds, newAdaptiveShedder opts now cpuSeconds = some as
  step := call

/-- The number of buckets that the options ask for. -/
def bucketsOf (opts : List ShedderOption) : Int :=
  opts.foldl (fun buckets opt => match opt with
    | .withBuckets buckets => buckets
    | _ => buckets) 50

/-- The window that the options ask for. -/
def windowOf (opts : List ShedderOption) : Int :=
  opts.foldl (fun window opt => match opt with
    | .withWindow window => window
    | _ => window) (5 * 10 ^ 9)

namespace RollingCounter

/-- The counter has a current bucket, and its buckets the length that the constructor computed. -/
structure Divides (interval : Int) (rc : RollingCounter) : Prop extends Buckets.Fits rc where
  /-- The length of a bucket. -/
  interval_eq : rc.interval = interval

variable {rc rc' : RollingCounter} {interval now : Int} {val : ℚ}

/-- A new counter divides by the length it is given. -/
theorem divides_new {size : Nat} (hsize : 0 < size) (interval now : Int) :
    (newRollingCounter size interval now).Divides interval :=
  ⟨.new hsize interval now, rfl⟩

/-- An advance divides by the length of a bucket. -/
theorem Divides.advance (h : rc.Divides interval) (hinterval : interval ≠ 0) (now : Int) :
    ∃ rc' : RollingCounter, rc.advance now = some rc' ∧ rc'.Divides interval := by
  have hsound : rc.Sound := ⟨h.toFits, by rwa [h.interval_eq]⟩
  obtain ⟨rc', hadvance, hsound, hring⟩ := hsound.advance now
  have hsame : rc'.interval = rc.interval :=
    (congrArg Rolling.interval hring).trans (Rolling.interval_advance rc.ring now)
  exact ⟨rc', hadvance, hsound.toFits, hsame.trans h.interval_eq⟩

/-- An amount is added to a bucket that exists. -/
theorem Divides.add (h : rc.Divides interval) (hinterval : interval ≠ 0) (val : ℚ) (now : Int) :
    ∃ rc', rc.add val now = some rc' ∧ rc'.Divides interval := by
  obtain ⟨rc', hadvance, hdivides⟩ := h.advance hinterval now
  have hoffset : rc'.offset < rc'.buckets.length := hdivides.lawful.current
  refine ⟨{ rc' with buckets := rc'.buckets.modify rc'.offset (· + val) }, ?_,
    hdivides.addCurrent val, hdivides.interval_eq⟩
  rw [RollingCounter.add, hadvance, Option.bind_some, if_pos hoffset]

/-- The mean is read after an advance. -/
theorem Divides.avg (h : rc.Divides interval) (hinterval : interval ≠ 0) (now : Int) :
    ∃ mean rc', rc.avg now = some (mean, rc') ∧ rc'.Divides interval := by
  obtain ⟨rc', hadvance, hdivides⟩ := h.advance hinterval now
  exact ⟨_, rc', by rw [RollingCounter.avg, hadvance, Option.map_some], hdivides⟩

/-- The largest bucket is read after an advance. -/
theorem Divides.max (h : rc.Divides interval) (hinterval : interval ≠ 0) (now : Int) :
    ∃ largest rc', rc.max now = some (largest, rc') ∧ rc'.Divides interval := by
  obtain ⟨rc', hadvance, hdivides⟩ := h.advance hinterval now
  exact ⟨_, rc', by rw [RollingCounter.max, hadvance, Option.map_some], hdivides⟩

end RollingCounter

namespace AdaptiveShedder

/-- The settings of a shedder, and that both counters are among their buckets. -/
structure Divides (buckets interval : Int) (as : AdaptiveShedder) : Prop where
  bucketNum_eq : as.bucketNum = buckets
  passCounter : as.passCounter.Divides interval
  rtCounter : as.rtCounter.Divides interval

variable {as as' : AdaptiveShedder} {buckets interval : Int} {opts : List ShedderOption}

private theorem foldl_apply_settings (opts : List ShedderOption) (as : AdaptiveShedder) :
    (opts.foldl ShedderOption.apply as).bucketNum =
        opts.foldl (fun buckets opt => match opt with
          | .withBuckets buckets => buckets
          | _ => buckets) as.bucketNum ∧
      (opts.foldl ShedderOption.apply as).windowSize =
        opts.foldl (fun window opt => match opt with
          | .withWindow window => window
          | _ => window) as.windowSize := by
  induction opts generalizing as with
  | nil => exact ⟨rfl, rfl⟩
  | cons opt opts ih =>
    simp only [List.foldl_cons]
    cases opt with
    | withBuckets buckets => exact ih _
    | withWindow window => exact ih _
    | withCpuThreshold threshold => exact ih _

/-- The constructor panics without a bucket, and otherwise divides the window by their number. -/
theorem new_spec (opts : List ShedderOption) (now : Int) (cpuSeconds : ℚ) :
    (bucketsOf opts ≤ 0 ∧ newAdaptiveShedder opts now cpuSeconds = none) ∨
      (0 < bucketsOf opts ∧ ∃ as, newAdaptiveShedder opts now cpuSeconds = some as ∧
        as.Divides (bucketsOf opts) ((windowOf opts).tdiv (bucketsOf opts))) := by
  have hsettings := foldl_apply_settings opts
    ⟨900, 5 * 10 ^ 9, 50, 0, 0, false, newRollingCounter 0 0 0, newRollingCounter 0 0 0, 0, 0⟩
  by_cases hbuckets : bucketsOf opts ≤ 0
  · refine .inl ⟨hbuckets, ?_⟩
    unfold newAdaptiveShedder
    dsimp only
    rw [if_pos]
    rw [hsettings.1]
    exact hbuckets
  · have hpos : 0 < (bucketsOf opts).toNat := by omega
    refine .inr ⟨not_le.mp hbuckets, ?_⟩
    unfold newAdaptiveShedder
    dsimp only
    rw [hsettings.1, hsettings.2]
    refine ⟨_, if_neg hbuckets, rfl, ?_, ?_⟩
    · exact RollingCounter.divides_new hpos _ _
    · exact RollingCounter.divides_new hpos _ _

/-- Sampling and the overload check leave the settings and the counters alone. -/
theorem systemOverloaded_counters (as : AdaptiveShedder) (r : Readings) :
    (as.systemOverloaded r).2.bucketNum = as.bucketNum ∧
      (as.systemOverloaded r).2.passCounter = as.passCounter ∧
      (as.systemOverloaded r).2.rtCounter = as.rtCounter := by
  have hcpu : (as.currentCPU r).2.bucketNum = as.bucketNum ∧
      (as.currentCPU r).2.passCounter = as.passCounter ∧
      (as.currentCPU r).2.rtCounter = as.rtCounter := by
    unfold currentCPU
    dsimp only
    split_ifs <;> exact ⟨rfl, rfl, rfl⟩
  unfold systemOverloaded
  dsimp only
  split_ifs <;> first | exact hcpu | exact ⟨rfl, rfl, rfl⟩

/-- The limit by the two readings of the counters. -/
theorem maxFlight_eq {r : Readings} {maxPass mean : ℚ} {passCounter rtCounter : RollingCounter}
    (hmax : as.passCounter.max r.passNow = some (maxPass, passCounter))
    (havg : as.rtCounter.avg r.rtNow = some (mean, rtCounter)) :
    as.maxFlight r = some (maxPass * max mean 1 / 1000 * as.bucketNum,
      { as with passCounter := passCounter, rtCounter := rtCounter }) := by
  rw [maxFlight, hmax, Option.bind_some]
  dsimp only
  rw [havg, Option.map_some]

private theorem Divides.maxFlight (h : as.Divides buckets interval) (hinterval : interval ≠ 0)
    (r : Readings) :
    ∃ limit as', as.maxFlight r = some (limit, as') ∧ as'.Divides buckets interval := by
  obtain ⟨largest, passCounter, hmax, hpass⟩ := h.passCounter.max hinterval r.passNow
  obtain ⟨mean, rtCounter, havg, hrt⟩ := h.rtCounter.avg hinterval r.rtNow
  exact ⟨_, _, maxFlight_eq hmax havg, h.bucketNum_eq, hpass, hrt⟩

private theorem Divides.allow (h : as.Divides buckets interval) (hinterval : interval ≠ 0)
    (r : Readings) (now : Int) :
    ∃ admitted as', as.allow r now = some (admitted, as') ∧ as'.Divides buckets interval := by
  obtain ⟨hnum, hpass, hrt⟩ := as.systemOverloaded_counters r
  have hchecked : (as.systemOverloaded r).2.Divides buckets interval :=
    ⟨hnum.trans h.bucketNum_eq, hpass ▸ h.passCounter, hrt ▸ h.rtCounter⟩
  unfold AdaptiveShedder.allow
  split
  · next as' hcheck =>
    rw [hcheck] at hchecked
    exact ⟨_, _, rfl, hchecked.bucketNum_eq, hchecked.passCounter, hchecked.rtCounter⟩
  · next as' hcheck =>
    rw [hcheck] at hchecked
    obtain ⟨limit, as'', hlimit, hdivides⟩ := hchecked.maxFlight hinterval r
    rw [exceedsMaxFlight, hlimit, Option.map_some, Option.map_some]
    dsimp only
    split
    · exact ⟨_, _, rfl, hdivides.bucketNum_eq, hdivides.passCounter, hdivides.rtCounter⟩
    · exact ⟨_, _, rfl, hdivides.bucketNum_eq, hdivides.passCounter, hdivides.rtCounter⟩

/-- With buckets of a length other than zero every call returns. -/
theorem Divides.call (h : as.Divides buckets interval) (hinterval : interval ≠ 0)
    (c : ShedderCall) : ∃ as', as.call c = some as' ∧ as'.Divides buckets interval := by
  cases c with
  | allow r now =>
    obtain ⟨admitted, as', hallow, hdivides⟩ := h.allow hinterval r now
    exact ⟨as', by rw [AdaptiveShedder.call, hallow, Option.map_some], hdivides⟩
  | pass start now passNow rtNow =>
    obtain ⟨passCounter, hpass, hpassDivides⟩ := h.passCounter.add hinterval 1 passNow
    obtain ⟨rtCounter, hrt, hrtDivides⟩ :=
      h.rtCounter.add hinterval ((now - start).tdiv (10 ^ 6) : Int) rtNow
    refine ⟨{ as.release with passCounter := passCounter, rtCounter := rtCounter }, ?_,
      h.bucketNum_eq, hpassDivides, hrtDivides⟩
    simp only [AdaptiveShedder.call, recordPass, release, hpass, hrt, Option.bind_some,
      Option.map_some]
  | fail => exact ⟨as.release, rfl, h.bucketNum_eq, h.passCounter, h.rtCounter⟩

/-- So does every sequence of calls. -/
theorem Divides.run (h : as.Divides buckets interval) (hinterval : interval ≠ 0)
    (calls : List ShedderCall) :
    ∃ as', (shedders opts).run as calls = some as' ∧ as'.Divides buckets interval := by
  induction calls generalizing as with
  | nil => exact ⟨as, rfl, h⟩
  | cons c calls ih =>
    obtain ⟨as', hcall, hdivides⟩ := h.call hinterval c
    obtain ⟨as'', hrun, hend⟩ := ih hdivides
    exact ⟨as'', (shedders opts).run_cons_iff.mpr ⟨as', hcall, hrun⟩, hend⟩

end AdaptiveShedder

/-- The constructor returns, every sequence of calls on the shedder does, and in all states the
counters have buckets and offsets among them. -/
def SafeArithmetic (opts : List ShedderOption) : Prop :=
  ∀ now cpuSeconds, ∃ as, newAdaptiveShedder opts now cpuSeconds = some as ∧
    ∀ calls, ∃ as', (shedders opts).run as calls = some as' ∧
      as'.passCounter.Fits ∧ as'.rtCounter.Fits

/-- A quotient is zero exactly when the dividend is the smaller one. -/
theorem tdiv_ne_zero_iff {window buckets : Int} (h : 0 < buckets) :
    window.tdiv buckets ≠ 0 ↔ buckets ≤ |window| := by
  have hquotient : (window.tdiv buckets).natAbs = window.natAbs / buckets.natAbs :=
    Int.natAbs_tdiv ..
  have hbound : buckets.natAbs ≤ window.natAbs ↔ buckets ≤ |window| := by
    rw [Int.abs_eq_natAbs]
    omega
  rw [← hbound, ← Int.natAbs_ne_zero, hquotient, Ne, Nat.div_eq_zero_iff]
  omega

/-- Without a length of the buckets the first pass panics. -/
theorem bounds_of_safeArithmetic {opts : List ShedderOption} (hsafe : SafeArithmetic opts) :
    1 ≤ bucketsOf opts ∧ bucketsOf opts ≤ |windowOf opts| := by
  obtain ⟨as, hnew, hcalls⟩ := hsafe 0 0
  rcases new_spec opts 0 0 with ⟨-, hnone⟩ | ⟨hpos, as', hnew', hdivides⟩
  · rw [hnone] at hnew
    cases hnew
  · refine ⟨hpos, (tdiv_ne_zero_iff hpos).mp fun hzero => ?_⟩
    obtain rfl : as' = as := Option.some.inj (hnew'.symm.trans hnew)
    obtain ⟨as'', hrun, -⟩ := hcalls [.pass 0 0 0 0]
    obtain ⟨t, hpass, -⟩ := (shedders opts).run_cons_iff.mp hrun
    have hadvance := Buckets.advance_eq_none (hdivides.passCounter.interval_eq.trans hzero) 0
    simp [shedders, call, recordPass, release,
      RollingCounter.add, hadvance] at hpass

/-- The arithmetic of a shedder is safe exactly when there is a bucket, and a nanosecond of the
window, of either sign, for each. -/
theorem shedder_arithmetic_safe_iff (opts : List ShedderOption) :
    SafeArithmetic opts ↔ 1 ≤ bucketsOf opts ∧ bucketsOf opts ≤ |windowOf opts| := by
  refine ⟨bounds_of_safeArithmetic, ?_⟩
  rintro ⟨hbuckets, hwindow⟩ now cpuSeconds
  rcases new_spec opts now cpuSeconds with ⟨hnone, -⟩ | ⟨hpos, as, hnew, hdivides⟩
  · omega
  · refine ⟨as, hnew, fun calls => ?_⟩
    obtain ⟨as', hrun, hend⟩ := hdivides.run ((tdiv_ne_zero_iff hpos).mpr hwindow) calls
    exact ⟨as', hrun, hend.passCounter.toFits, hend.rtCounter.toFits⟩

/-- More buckets than the window has nanoseconds. -/
def shortWindow : List ShedderOption := [.withBuckets 50, .withWindow 49]

/-- The shedder is built, a request is admitted, and the division of its `Pass` panics. Without a
bucket the constructor does. -/
theorem first_pass_divides_by_zero :
    (newAdaptiveShedder shortWindow 0 0).map (·.passCounter.interval) = some 0 ∧
      ((newAdaptiveShedder shortWindow 0 0).bind fun as =>
        (shedders shortWindow).run as [.allow ⟨1, 0, 1, 1, 1, 1⟩ 1]).isSome = true ∧
      ((newAdaptiveShedder shortWindow 0 0).bind fun as =>
        (shedders shortWindow).run as [.allow ⟨1, 0, 1, 1, 1, 1⟩ 1, .pass 1 2 2 2]) = none ∧
      newAdaptiveShedder [.withBuckets 0] 0 0 = none ∧ ¬ SafeArithmetic shortWindow := by
  refine ⟨by decide +kernel, by decide +kernel, by decide +kernel, by decide +kernel, ?_⟩
  intro hsafe
  have hbound := bounds_of_safeArithmetic hsafe
  revert hbound
  decide

end Stardust.Load
