import Mathlib.Data.Rat.Floor
import Stardust.Breaker.RollingWindow

/-!
# The breaker

A request is let through while the window has few requests, and otherwise turned away with a
probability that grows with the share of failures. The ratio is kept in exact rational
arithmetic; the random number is drawn by the caller. A call is absent where the window panics.
That is the case exactly when the length of a bucket, which wraps around in 64 bits, comes to zero.
-/

namespace Stardust.Breaker

/-- The configuration of a breaker. -/
structure GoogleBreakerConfig where
  /-- The multiplier of the accepted requests. -/
  k : ℚ
  /-- The number of buckets. -/
  buckets : Int
  /-- The length of a bucket in milliseconds. -/
  bucketTimeMs : Int
  /-- The number of requests below which none is turned away. -/
  minReqs : Int
  deriving DecidableEq

/-- The defaults. -/
def defaultGoogleBreakerConfig : GoogleBreakerConfig := ⟨3 / 2, 40, 250, 100⟩

variable (config : GoogleBreakerConfig)

/-- The defaults in place of what is not positive. -/
def normalizeGoogleBreakerConfig : GoogleBreakerConfig :=
  let defaults := defaultGoogleBreakerConfig
  { k := if config.k ≤ 0 then defaults.k else config.k
    buckets := if config.buckets ≤ 0 then defaults.buckets else config.buckets
    bucketTimeMs := if config.bucketTimeMs ≤ 0 then defaults.bucketTimeMs else config.bucketTimeMs
    minReqs := if config.minReqs ≤ 0 then defaults.minReqs else config.minReqs }

/-- A millisecond in nanoseconds. -/
def millisecond : Int := 1000000

/-- The length of a bucket as a `time.Duration`, whose product wraps around. -/
def GoogleBreakerConfig.bucketTime : Int :=
  Int.bmod (config.bucketTimeMs * millisecond) (2 ^ 64)

/-- The fields of a `GoogleBreaker`. -/
structure GoogleBreaker where
  window : RollingWindow
  k : ℚ
  minReqs : Int

/-- A breaker with an empty window. -/
def newGoogleBreakerWithConfig (now : Int) : GoogleBreaker :=
  let config := normalizeGoogleBreakerConfig config
  ⟨newRollingWindow config.buckets.toNat config.bucketTime now, config.k, config.minReqs⟩

/-- A breaker with the default configuration. -/
def newGoogleBreaker (now : Int) : GoogleBreaker :=
  newGoogleBreakerWithConfig defaultGoogleBreakerConfig now

/-- The error of a request that is turned away. -/
def errServiceUnavailable : String := "circuit breaker is open"

namespace GoogleBreaker

/-- The probability of turning a request away. -/
def dropRatio (gb : GoogleBreaker) (accepts total : Int) : ℚ :=
  max 0 ((total - gb.k * accepts) / (total + 1))

/-- Whether a request is let through, with the random number `draw`: the error, if it is not. -/
def accept (gb : GoogleBreaker) (now : Int) (draw : ℚ) : Option (Option String × GoogleBreaker) :=
  (gb.window.sum now).map fun ((accepts, total), window) =>
    let gb := { gb with window := window }
    if total < gb.minReqs then (none, gb)
    else if gb.dropRatio accepts total ≤ 0 then (none, gb)
    else if draw < gb.dropRatio accepts total then (some errServiceUnavailable, gb)
    else (none, gb)

/-- Record a request, accepted or not. -/
def mark (gb : GoogleBreaker) (accepts now : Int) : Option GoogleBreaker :=
  (gb.window.add accepts 1 now).map fun window => { gb with window := window }

/-- Record an accepted request. -/
def markSuccess (gb : GoogleBreaker) (now : Int) : Option GoogleBreaker := gb.mark 1 now

/-- Record a rejected request. -/
def markFailure (gb : GoogleBreaker) (now : Int) : Option GoogleBreaker := gb.mark 0 now

variable {gb : GoogleBreaker}

/-- There is a bucket in every configuration that is used. -/
theorem buckets_pos : 0 < (normalizeGoogleBreakerConfig config).buckets := by
  simp only [normalizeGoogleBreakerConfig, defaultGoogleBreakerConfig]
  split <;> omega

/-- The window of a new breaker has a current bucket. -/
theorem new_fits (now : Int) : (newGoogleBreakerWithConfig config now).window.Fits :=
  .new (Int.pos_iff_toNat_pos.mp (buckets_pos config)) _ now

/-- The window of a new breaker works unless the length of its buckets has come to zero. -/
theorem new_sound {config : GoogleBreakerConfig}
    (htime : (normalizeGoogleBreakerConfig config).bucketTime ≠ 0) (now : Int) :
    (newGoogleBreakerWithConfig config now).window.Sound :=
  ⟨new_fits config now, htime⟩

/-- A decision is made over buckets with a length. -/
theorem sound_of_accept (h : gb.window.Fits) {now : Int} {draw : ℚ}
    {r : Option String × GoogleBreaker} (haccept : gb.accept now draw = some r) :
    gb.window.Sound := by
  obtain ⟨read, hsum, -⟩ := Option.map_eq_some_iff.mp haccept
  exact RollingWindow.sound_of_call (c := .sum now) h (congrArg (Option.map Prod.snd) hsum)

/-- A record is made over buckets with a length. -/
theorem sound_of_mark (h : gb.window.Fits) {accepts now : Int} {gb' : GoogleBreaker}
    (hmark : gb.mark accepts now = some gb') : gb.window.Sound := by
  obtain ⟨window, hadd, -⟩ := Option.map_eq_some_iff.mp hmark
  exact RollingWindow.sound_of_call (c := .add accepts 1 now) h hadd

/-- The decision reads the window by one call of `sum` and changes nothing else. -/
theorem accept_spec (h : gb.window.Sound) (now : Int) (draw : ℚ) :
    ∃ err window, gb.accept now draw = some (err, { gb with window := window }) ∧
      gb.window.call (.sum now) = some window ∧ window.Sound := by
  obtain ⟨window, hcall, hsound, -⟩ := windows.call_spec gb.window (.sum now) h
  have hsum : gb.window.call (.sum now) = some window := hcall
  obtain ⟨⟨counts, window'⟩, hcounts, rfl⟩ := Option.map_eq_some_iff.mp hsum
  unfold accept
  rw [hcounts, Option.map_some]
  dsimp only
  split
  · exact ⟨_, _, rfl, hsum, hsound⟩
  · split
    · exact ⟨_, _, rfl, hsum, hsound⟩
    · split
      · exact ⟨_, _, rfl, hsum, hsound⟩
      · exact ⟨_, _, rfl, hsum, hsound⟩

/-- A record is one call of `add`. -/
theorem mark_spec (h : gb.window.Sound) (accepts now : Int) :
    ∃ window, gb.mark accepts now = some { gb with window := window } ∧
      gb.window.call (.add accepts 1 now) = some window ∧ window.Sound := by
  obtain ⟨window, hcall, hsound, -⟩ := windows.call_spec gb.window (.add accepts 1 now) h
  have hadd : gb.window.add accepts 1 now = some window := hcall
  refine ⟨window, ?_, hadd, hsound⟩
  rw [mark, hadd, Option.map_some]

end GoogleBreaker

end Stardust.Breaker
