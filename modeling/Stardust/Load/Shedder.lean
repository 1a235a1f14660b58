import Stardust.Load.RollingCounter

/-!
# The adaptive shedder

Clock readings, the runtime's CPU seconds, and `GOMAXPROCS` are explicit inputs. An
absent result stands for a panic, which only the rolling counters can raise. `Allow`
and the promise are given by the sections that other requests can run between: the
overload check, the locked comparison with the limit, and the atomic counter updates.
-/

namespace Stardust.Load

/-- The fields of an `AdaptiveShedder`. -/
structure AdaptiveShedder where
  /-- Overload threshold in thousandths, not positive to disable the check. -/
  cpuThreshold : Int
  /-- The length of the whole window. -/
  windowSize : Int
  /-- The number of buckets of both counters. -/
  bucketNum : Int
  /-- The admitted requests that have not been resolved. -/
  flying : Int
  /-- The reading at which a request was last dropped. -/
  dropTime : Int
  /-- Whether `dropTime` still counts. -/
  droppedRecently : Bool
  /-- Passes by bucket. -/
  passCounter : RollingCounter
  /-- Response times in milliseconds by bucket. -/
  rtCounter : RollingCounter
  /-- The CPU seconds of the last sample. -/
  lastCPUSeconds : ℚ
  /-- The reading of the last sample. -/
  lastCPUCheck : Int
  deriving DecidableEq, Repr

/-- The options of the constructor. -/
inductive ShedderOption where
  | withBuckets (buckets : Int)
  | withWindow (window : Int)
  | withCpuThreshold (threshold : Int)
  deriving DecidableEq, Repr

variable (as : AdaptiveShedder)

/-- An option overwrites one field before the counters are built. -/
def ShedderOption.apply : ShedderOption → AdaptiveShedder
  | .withBuckets buckets => { as with bucketNum := buckets }
  | .withWindow window => { as with windowSize := window }
  | .withCpuThreshold threshold => { as with cpuThreshold := threshold }

/-- The constructor panics on a zero or negative number of buckets. -/
def newAdaptiveShedder (opts : List ShedderOption) (now : Int) (cpuSeconds : ℚ) :
    Option AdaptiveShedder :=
  let empty := newRollingCounter 0 0 0
  let as : AdaptiveShedder := ⟨900, 5 * 10 ^ 9, 50, 0, 0, false, empty, empty, 0, 0⟩
  let as := opts.foldl ShedderOption.apply as
  if as.bucketNum ≤ 0 then none
  else
    let bucketDuration := as.windowSize.tdiv as.bucketNum
    let counter := newRollingCounter as.bucketNum.toNat bucketDuration now
    some { as with
      passCounter := counter, rtCounter := counter, lastCPUCheck := now,
      lastCPUSeconds := cpuSeconds }

/-- What one `shouldDrop` reads from its environment. -/
structure Readings where
  /-- The clock at the CPU sample. -/
  cpuNow : Int
  /-- The summed CPU seconds at the sample. -/
  cpuSeconds : ℚ
  gomaxprocs : Int
  /-- The clock at the comparison with the last drop. -/
  sinceNow : Int
  /-- The clock at the maximum of the pass counter. -/
  passNow : Int
  /-- The clock at the mean of the response times. -/
  rtNow : Int
  deriving DecidableEq, Repr

variable (r : Readings)

/-- CPU usage since the last sample in thousandths, and the new sample. -/
def AdaptiveShedder.currentCPU : Int × AdaptiveShedder :=
  let elapsed := r.cpuNow - as.lastCPUCheck
  let delta := r.cpuSeconds - as.lastCPUSeconds
  let as := { as with lastCPUCheck := r.cpuNow, lastCPUSeconds := r.cpuSeconds }
  if elapsed ≤ 0 then (0, as)
  else if delta ≤ 0 then (0, as)
  else
    let gomaxprocs := if r.gomaxprocs ≤ 0 then 1 else r.gomaxprocs
    let usage : ℚ := delta / (elapsed / 10 ^ 9) / gomaxprocs * 1000
    if usage < 0 then (0, as) else if usage > 1000 then (1000, as) else (⌊usage⌋, as)

/-- Overloaded by CPU, or a request was dropped within the last second. -/
def AdaptiveShedder.systemOverloaded : Bool × AdaptiveShedder :=
  let (cpu, as) := if as.cpuThreshold > 0 then as.currentCPU r else (0, as)
  if as.cpuThreshold > 0 ∧ cpu ≥ as.cpuThreshold then (true, as)
  else if as.droppedRecently then
    if r.sinceNow - as.dropTime < 10 ^ 9 then (true, as)
    else (false, { as with droppedRecently := false })
  else (false, as)

/-- The concurrency limit from the largest bucket and the mean response time. -/
def AdaptiveShedder.maxFlight : Option (ℚ × AdaptiveShedder) :=
  (as.passCounter.max r.passNow).bind fun (maxPass, passCounter) =>
    (as.rtCounter.avg r.rtNow).map fun (avg, rtCounter) =>
      let minRt := max avg 1
      (maxPass * minRt / 1000 * as.bucketNum,
        { as with passCounter := passCounter, rtCounter := rtCounter })

/-- The locked section of `shouldDrop`: the in-flight counter against the limit. -/
def AdaptiveShedder.exceedsMaxFlight : Option (Bool × AdaptiveShedder) :=
  (as.maxFlight r).map fun (maxFlight, as') => (decide ((as.flying : ℚ) > maxFlight), as')

/-- `Allow` refuses the request and remembers when. -/
def AdaptiveShedder.drop (now : Int) : AdaptiveShedder :=
  { as with dropTime := now, droppedRecently := true }

/-- `Allow` admits the request by one atomic increment. -/
def AdaptiveShedder.acquire : AdaptiveShedder :=
  { as with flying := as.flying + 1 }

/-- The atomic decrement shared by `Pass` and `Fail`. -/
def AdaptiveShedder.release : AdaptiveShedder :=
  { as with flying := as.flying - 1 }

/-- The rest of `Pass`: count the pass and its response time in milliseconds. -/
def AdaptiveShedder.recordPass (start now passNow rtNow : Int) : Option AdaptiveShedder :=
  let rt : ℚ := ((now - start).tdiv (10 ^ 6) : Int)
  (as.passCounter.add 1 passNow).bind fun passCounter =>
    (as.rtCounter.add rt rtNow).map fun rtCounter =>
      { as with passCounter := passCounter, rtCounter := rtCounter }

/-- Options never touch the in-flight counter. -/
theorem ShedderOption.foldl_apply_flying (opts : List ShedderOption) (as : AdaptiveShedder) :
    (opts.foldl ShedderOption.apply as).flying = as.flying := by
  induction opts generalizing as with
  | nil => rfl
  | cons opt opts ih =>
    rw [List.foldl_cons, ih]
    cases opt <;> rfl

/-- A constructed shedder has nothing in flight. -/
theorem newAdaptiveShedder_flying {opts : List ShedderOption} {now : Int} {cpuSeconds : ℚ}
    {as : AdaptiveShedder} (h : newAdaptiveShedder opts now cpuSeconds = some as) :
    as.flying = 0 := by
  unfold newAdaptiveShedder at h
  simp only at h
  split at h
  · cases h
  · cases h
    exact ShedderOption.foldl_apply_flying opts _

/-- Sampling the CPU leaves the in-flight counter alone. -/
theorem AdaptiveShedder.currentCPU_flying : (as.currentCPU r).2.flying = as.flying := by
  unfold AdaptiveShedder.currentCPU
  simp only
  split_ifs <;> rfl

/-- The overload check leaves the in-flight counter alone. -/
theorem AdaptiveShedder.systemOverloaded_flying : (as.systemOverloaded r).2.flying = as.flying := by
  have hcpu := as.currentCPU_flying r
  unfold AdaptiveShedder.systemOverloaded
  simp only
  split_ifs <;> first | exact hcpu | rfl

/-- Computing the limit leaves the in-flight counter alone. -/
theorem AdaptiveShedder.maxFlight_flying {as as' : AdaptiveShedder} {r : Readings} {limit : ℚ}
    (h : as.maxFlight r = some (limit, as')) : as'.flying = as.flying := by
  unfold AdaptiveShedder.maxFlight at h
  obtain ⟨⟨maxPass, passCounter⟩, _, h⟩ := Option.bind_eq_some_iff.mp h
  obtain ⟨⟨avg, rtCounter⟩, _, h⟩ := Option.map_eq_some_iff.mp h
  cases h
  rfl

/-- The comparison with the limit leaves the in-flight counter alone. -/
theorem AdaptiveShedder.exceedsMaxFlight_flying {as as' : AdaptiveShedder} {r : Readings}
    {drop : Bool} (h : as.exceedsMaxFlight r = some (drop, as')) : as'.flying = as.flying := by
  unfold AdaptiveShedder.exceedsMaxFlight at h
  obtain ⟨⟨limit, mid⟩, hmax, h⟩ := Option.map_eq_some_iff.mp h
  cases h
  exact AdaptiveShedder.maxFlight_flying hmax

/-- Recording a pass never changes the in-flight counter. -/
theorem AdaptiveShedder.recordPass_flying {as as' : AdaptiveShedder}
    {start now passNow rtNow : Int} (h : as.recordPass start now passNow rtNow = some as') :
    as'.flying = as.flying := by
  unfold AdaptiveShedder.recordPass at h
  obtain ⟨passCounter, _, h⟩ := Option.bind_eq_some_iff.mp h
  obtain ⟨rtCounter, _, rfl⟩ := Option.map_eq_some_iff.mp h
  rfl

end Stardust.Load
