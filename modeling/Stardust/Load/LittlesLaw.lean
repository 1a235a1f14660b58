import Stardust.Load.Arithmetic
import Stardust.Load.ResponseTime

/-!
# Little's law

The limit is the largest bucket times the response time times the number of buckets. The number of
requests in a system is their rate times the time each takes, and the rate is the largest bucket
divided by the length of a bucket. The two differ by the length of the window in seconds.
-/

namespace Stardust.Load

/-- The rate at which requests pass, by the largest bucket and the length of a bucket in
nanoseconds, in requests a second. -/
def peakThroughput (maxPass : ℚ) (interval : Int) : ℚ := maxPass / (interval / 10 ^ 9)

/-- The number of requests in a system by their rate and the time that each takes in
milliseconds. -/
def littlesLaw (throughput rt : ℚ) : ℚ := throughput * (rt / 1000)

namespace AdaptiveShedder

variable {as : AdaptiveShedder} {buckets interval : Int}

/-- The shedder that the options ask for has buckets of the length that divides the window. -/
theorem divides_of_reachable {opts : List ShedderOption} (hbuckets : 1 ≤ buckets)
    (hinterval : interval ≠ 0) (hopts : bucketsOf opts = buckets)
    (hwindow : windowOf opts = buckets * interval) (h : (shedders opts).Reachable as) :
    as.Divides buckets interval := by
  have hlength : (windowOf opts).tdiv (bucketsOf opts) = interval := by
    rw [hwindow, hopts]
    exact Int.mul_tdiv_cancel_left interval (by omega)
  refine h.invariant ?_ fun as c as' hdivides hcall => ?_
  · rintro as ⟨now, cpuSeconds, hnew⟩
    rcases new_spec opts now cpuSeconds with ⟨hnone, -⟩ | ⟨-, as', hnew', hdivides⟩
    · omega
    · obtain rfl : as' = as := Option.some.inj (hnew'.symm.trans hnew)
      rwa [hlength, hopts] at hdivides
  · obtain ⟨as'', hcall', hdivides'⟩ := hdivides.call hinterval c
    obtain rfl : as'' = as' := Option.some.inj (hcall'.symm.trans hcall)
    exact hdivides'

end AdaptiveShedder

/-- Whatever the window holds, the limit is the number of requests by Little's law times the length
of the window in seconds. It is that number exactly when the window is a second long, or no request
has passed. -/
theorem max_flight_littles_law_iff (buckets interval : Int) (hinterval : 0 < interval)
    (as : AdaptiveShedder) (has : as.Divides buckets interval) (r : Readings) :
    ∃ maxPass passCounter rt limit as', as.passCounter.max r.passNow = some (maxPass, passCounter) ∧
      as.minRt r.rtNow = some rt ∧ as.maxFlight r = some (limit, as') ∧
      limit = littlesLaw (peakThroughput maxPass interval) rt * (buckets * interval / 10 ^ 9) ∧
      (limit = littlesLaw (peakThroughput maxPass interval) rt ↔
        buckets * interval = 10 ^ 9 ∨ maxPass = 0) := by
  obtain ⟨maxPass, passCounter, hmax, -⟩ := has.passCounter.max hinterval.ne' r.passNow
  obtain ⟨mean, rtCounter, havg, -⟩ := has.rtCounter.avg hinterval.ne' r.rtNow
  have hlimit := AdaptiveShedder.maxFlight_eq hmax havg
  have hlength : (interval : ℚ) ≠ 0 := by exact_mod_cast hinterval.ne'
  have hrt : max mean 1 ≠ 0 := (lt_of_lt_of_le one_pos (le_max_right mean 1)).ne'
  have hscaled : maxPass * max mean 1 / 1000 * as.bucketNum =
      littlesLaw (peakThroughput maxPass interval) (max mean 1) *
        (buckets * interval / 10 ^ 9) := by
    rw [has.bucketNum_eq, littlesLaw, peakThroughput]
    field_simp
  have hsecond : (buckets * interval / 10 ^ 9 : ℚ) = 1 ↔ buckets * interval = 10 ^ 9 := by
    rw [div_eq_one_iff_eq (by norm_num)]
    exact_mod_cast Iff.rfl
  have hidle : littlesLaw (peakThroughput maxPass interval) (max mean 1) = 0 ↔ maxPass = 0 := by
    simp [littlesLaw, peakThroughput, hlength, hrt]
  refine ⟨maxPass, passCounter, max mean 1, _, _, hmax, ?_, hlimit, hscaled, ?_⟩
  · rw [AdaptiveShedder.minRt, havg, Option.map_some]
  · rw [hscaled, mul_right_eq_self₀, hsecond, hidle]

/-- A shedder after a pass of a tenth of a second. -/
def afterOnePass (opts : List ShedderOption) : Option AdaptiveShedder :=
  (newAdaptiveShedder opts 0 0).bind (·.call (.pass 0 (10 ^ 8) (10 ^ 8) (10 ^ 8)))

/-- All clocks are read at that time. -/
def rightAfter : Readings := ⟨10 ^ 8, 0, 1, 10 ^ 8, 10 ^ 8, 10 ^ 8⟩

/-- Ten buckets of a tenth of a second. -/
def oneSecond : List ShedderOption := [.withBuckets 10, .withWindow (10 ^ 9)]

private theorem reachable_afterOnePass {opts : List ShedderOption} {as : AdaptiveShedder}
    (h : afterOnePass opts = some as) : (shedders opts).Reachable as := by
  obtain ⟨as', hnew, hcall⟩ := Option.bind_eq_some_iff.mp h
  exact ⟨as', [.pass 0 (10 ^ 8) (10 ^ 8) (10 ^ 8)], ⟨0, 0, hnew⟩,
    (shedders opts).run_cons_iff.mpr ⟨as, hcall, rfl⟩⟩

/-- With a window of one second the limit is that of Little's law. -/
theorem max_flight_littles_law_in_a_second :
    ∃ as, afterOnePass oneSecond = some as ∧ ∃ maxPass passCounter rt limit as',
      as.passCounter.max rightAfter.passNow = some (maxPass, passCounter) ∧
      as.minRt rightAfter.rtNow = some rt ∧ as.maxFlight rightAfter = some (limit, as') ∧
      limit = littlesLaw (peakThroughput maxPass (10 ^ 8)) rt := by
  have hpassed : (afterOnePass oneSecond).isSome := by decide +kernel
  obtain ⟨as, has⟩ := Option.isSome_iff_exists.mp hpassed
  have hdivides : as.Divides 10 (10 ^ 8) :=
    AdaptiveShedder.divides_of_reachable (by decide) (by decide) rfl rfl
      (reachable_afterOnePass has)
  obtain ⟨maxPass, passCounter, rt, limit, as', hmax, hrt, hlimit, -, hlaw⟩ :=
    max_flight_littles_law_iff 10 (10 ^ 8) (by decide) as hdivides rightAfter
  exact ⟨as, has, maxPass, passCounter, rt, limit, as', hmax, hrt, hlimit,
    hlaw.mpr (.inl (by decide))⟩

/-- One pass of a tenth of a second in a tenth of a second makes one request in the system by
Little's law. The limit of a default shedder is five, and with twice as many of the same buckets it
is ten. -/
theorem max_flight_grows_with_window :
    ((afterOnePass []).bind fun as => as.passCounter.max (10 ^ 8)).map Prod.fst = some 1 ∧
      ((afterOnePass []).bind fun as => as.minRt (10 ^ 8)) = some 100 ∧
      littlesLaw (peakThroughput 1 (10 ^ 8)) 100 = 1 ∧
      ((afterOnePass []).bind fun as => as.maxFlight rightAfter).map Prod.fst = some 5 ∧
      ((afterOnePass [.withBuckets 100, .withWindow (10 ^ 10)]).bind fun as =>
        as.maxFlight rightAfter).map Prod.fst = some 10 := by
  decide +kernel

end Stardust.Load
