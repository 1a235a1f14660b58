import Stardust.Breaker.Accounting

/-!
# The drop ratio over whole runs

The counts that promises leave in the window are sums of verdicts, so that what is true of the
verdicts and kept by sums is true of the window. In general at most all requests were accepted;
where no promise was rejected, all were. The ratio then is zero if the multiplier is at least one,
and positive if it is less, which the configuration does not exclude.
-/

namespace Stardust.Breaker

open Stardust.Core GoogleBreaker

/-- The counts of any requests. -/
def counts : AddSubmonoid Bucket where
  carrier := {b | 0 ≤ b.accepts ∧ b.accepts ≤ b.total}
  zero_mem' := ⟨le_rfl, le_rfl⟩
  add_mem' := by
    rintro a b ⟨ha, ha'⟩ ⟨hb, hb'⟩
    exact ⟨add_nonneg ha hb, add_le_add ha' hb'⟩

/-- The counts of requests that were all accepted. -/
def acceptedCounts : AddSubmonoid Bucket where
  carrier := {b | 0 ≤ b.accepts ∧ b.accepts = b.total}
  zero_mem' := ⟨le_rfl, rfl⟩
  add_mem' := by
    rintro a b ⟨ha, ha'⟩ ⟨hb, hb'⟩
    exact ⟨add_nonneg ha hb, congrArg₂ (· + ·) ha' hb'⟩

private theorem mem_counts {b : Bucket} : b ∈ counts ↔ 0 ≤ b.accepts ∧ b.accepts ≤ b.total :=
  Iff.rfl

private theorem mem_acceptedCounts {b : Bucket} :
    b ∈ acceptedCounts ↔ 0 ≤ b.accepts ∧ b.accepts = b.total := Iff.rfl

private theorem verdict_mem_counts (accepted : Bool) : verdict accepted ∈ counts := by
  cases accepted <;> exact mem_counts.mpr (by decide)

private theorem verdict_mem_acceptedCounts : verdict true ∈ acceptedCounts :=
  mem_acceptedCounts.mpr (by decide)

namespace GoogleBreaker

variable {gb : GoogleBreaker} {accepts total : Int}

/-- The ratio is never negative. -/
theorem dropRatio_nonneg : 0 ≤ gb.dropRatio accepts total := le_max_left ..

/-- The ratio is zero exactly when the accepted requests, with their multiplier, make up for all. -/
theorem dropRatio_eq_zero_iff (htotal : 0 ≤ total) :
    gb.dropRatio accepts total = 0 ↔ (total : ℚ) ≤ gb.k * accepts := by
  have hpos : (0 : ℚ) < total + 1 := by exact_mod_cast (by omega : 0 < total + 1)
  rw [dropRatio, max_eq_left_iff, div_le_iff₀ hpos, zero_mul, sub_nonpos]

/-- A request is never turned away for certain. -/
theorem dropRatio_lt_one (hk : 0 ≤ gb.k) (haccepts : 0 ≤ accepts) (htotal : 0 ≤ total) :
    gb.dropRatio accepts total < 1 := by
  have hpos : (0 : ℚ) < total + 1 := by exact_mod_cast (by omega : 0 < total + 1)
  have hshare : 0 ≤ gb.k * accepts := mul_nonneg hk (by exact_mod_cast haccepts)
  refine max_lt one_pos ?_
  rw [div_lt_one hpos]
  linarith

/-- One more failure does not lower the ratio. -/
theorem dropRatio_le_failure (hk : 0 ≤ gb.k) (haccepts : 0 ≤ accepts) (htotal : 0 ≤ total) :
    gb.dropRatio accepts total ≤ gb.dropRatio accepts (total + 1) := by
  have htotal' : (0 : ℚ) ≤ total := by exact_mod_cast htotal
  have hshare : 0 ≤ gb.k * accepts := mul_nonneg hk (by exact_mod_cast haccepts)
  refine max_le_max le_rfl ?_
  push_cast
  rw [div_le_div_iff₀ (by linarith) (by linarith)]
  nlinarith

/-- One more success does not raise the ratio if its multiplier is at least one. -/
theorem dropRatio_success_le (hk : 1 ≤ gb.k) (haccepts : 0 ≤ accepts) (hle : accepts ≤ total) :
    gb.dropRatio (accepts + 1) (total + 1) ≤ gb.dropRatio accepts total := by
  have htotal : (0 : ℚ) ≤ total := by exact_mod_cast haccepts.trans hle
  have hrest : (0 : ℚ) ≤ total - accepts := by
    rw [sub_nonneg]
    exact_mod_cast hle
  have hshare : 0 ≤ gb.k * (total - accepts) := mul_nonneg (by linarith) hrest
  refine max_le_max le_rfl ?_
  push_cast
  rw [div_le_div_iff₀ (by linarith) (by linarith)]
  nlinarith

/-- A decision by the counts it finds. -/
theorem accept_eq {now : Int} {draw : ℚ} {window : RollingWindow}
    (h : gb.window.sum now = some ((accepts, total), window)) :
    gb.accept now draw =
      some (if gb.minReqs ≤ total ∧ 0 < gb.dropRatio accepts total ∧
          draw < gb.dropRatio accepts total then some errServiceUnavailable else none,
        { gb with window := window }) := by
  have hratio : dropRatio { gb with window := window } accepts total =
    gb.dropRatio accepts total := rfl
  rw [accept, h, Option.map_some]
  dsimp only
  rw [hratio]
  by_cases hfew : total < gb.minReqs
  · simp [hfew]
  · by_cases hzero : gb.dropRatio accepts total ≤ 0
    · simp [hfew, hzero, not_lt.mpr hzero]
    · by_cases hdraw : draw < gb.dropRatio accepts total
      · simp [hfew, hzero, hdraw, not_lt.mp hfew, not_le.mp hzero]
      · simp [hfew, hzero, hdraw]

end GoogleBreaker

/-- A breaker with its promises. -/
structure Served where
  breaker : GoogleBreaker
  /-- The number of promises that were issued. -/
  issued : Nat
  /-- The errors that `Allow` has returned, in order. -/
  answers : List (Option String)

/-- A call on a breaker or on one of its promises, with its clock reading. -/
inductive Event where
  /-- `Allow`, with the random number. -/
  | allow (now : Int) (draw : ℚ)
  /-- `Accept` or `Reject`. -/
  | resolve (accepted : Bool) (now : Int)

/-- The clock reading of a call. -/
def Event.now : Event → Int
  | .allow now _ => now
  | .resolve _ now => now

/-- The call is not `Reject`. -/
def Event.Accepting : Event → Prop
  | .allow _ _ => True
  | .resolve accepted _ => accepted = true

namespace Served

/-- A new breaker. -/
def start (config : GoogleBreakerConfig) (created : Int) : Served :=
  ⟨newGoogleBreakerWithConfig config created, 0, []⟩

/-- The random number is at least zero and less than one. Only a promise can be resolved; nothing
keeps it from being resolved again. -/
def step (s : Served) : Event → Option Served
  | .allow now draw =>
    if 0 ≤ draw ∧ draw < 1 then
      (s.breaker.accept now draw).map fun (err, gb) =>
        ⟨gb, if err = none then s.issued + 1 else s.issued, s.answers ++ [err]⟩
    else none
  | .resolve accepted now =>
    if 0 < s.issued then
      (s.breaker.resolve accepted now).map fun gb => { s with breaker := gb }
    else none

/-- The calls on a new breaker. -/
def serving (config : GoogleBreakerConfig) : System Served Event where
  init s := ∃ created, s = start config created
  step := step

/-- No call of `Allow` was turned away. -/
def Unthrottled (s : Served) : Prop := ∀ err ∈ s.answers, err = none

/-- The settings of a breaker, and what its buckets hold. -/
structure Holds (S : AddSubmonoid Bucket) (config : GoogleBreakerConfig) (s : Served) : Prop where
  /-- The multiplier is the configured one. -/
  k_eq : s.breaker.k = (normalizeGoogleBreakerConfig config).k
  /-- So is the number of requests below which none is turned away. -/
  minReqs_eq : s.breaker.minReqs = (normalizeGoogleBreakerConfig config).minReqs
  /-- Calls on the window return. -/
  sound : s.breaker.window.Sound
  /-- Every bucket is a sum of verdicts. -/
  within : s.breaker.window.ring.Within S

variable {S : AddSubmonoid Bucket} {config : GoogleBreakerConfig} {s s' : Served} {e : Event}
  {now created : Int} {accepted : Bool} {draw : ℚ}

/-- The buckets of a new breaker are empty. -/
theorem holds_start (S : AddSubmonoid Bucket)
    (htime : (normalizeGoogleBreakerConfig config).bucketTime ≠ 0) (created : Int) :
    (start config created).Holds S config := by
  refine ⟨rfl, rfl, new_sound htime created, fun b hb => ?_⟩
  rw [List.eq_of_mem_replicate hb]
  exact S.zero_mem

/-- A read of the window finds a sum of verdicts. -/
theorem Holds.sum (h : s.Holds S config) (now : Int) :
    ∃ window, s.breaker.window.sum now =
        some ((window.buckets.sum.accepts, window.buckets.sum.total), window) ∧
      window.ring = s.breaker.window.ring.advance now ∧ window.buckets.sum ∈ S ∧
      ∀ issued answers,
        Holds S config ⟨{ s.breaker with window := window }, issued, answers⟩ := by
  obtain ⟨window, hsum, hsound, hring⟩ := RollingWindow.sum_spec h.sound now
  have hwithin : window.ring.Within S := by
    rw [hring]
    exact h.within.advance now
  exact ⟨window, hsum, hring, hwithin.sum_mem, fun _ _ => ⟨h.k_eq, h.minReqs_eq, hsound, hwithin⟩⟩

/-- A verdict is added to the current bucket. -/
theorem Holds.resolve (h : s.Holds S config) (hmem : verdict accepted ∈ S) (now : Int) :
    ∃ window, s.breaker.resolve accepted now = some { s.breaker with window := window } ∧
      window.ring = (s.breaker.window.ring.advance now).addCurrent (verdict accepted) ∧
      ∀ issued answers,
        Holds S config ⟨{ s.breaker with window := window }, issued, answers⟩ := by
  obtain ⟨window, hresolve, hcall, hsound⟩ := resolve_spec h.sound accepted now
  obtain ⟨window', hcall', -, hring⟩ := windows.call_spec s.breaker.window
    (.add (verdict accepted).accepts (verdict accepted).total now) h.sound
  obtain rfl : window = window' := Option.some.inj (hcall.symm.trans hcall')
  have hring' : window.ring =
    (s.breaker.window.ring.advance now).addCurrent (verdict accepted) := hring
  have hwithin : window.ring.Within S := by
    rw [hring']
    exact (h.within.advance now).addCurrent hmem
  exact ⟨window, hresolve, hring', fun _ _ => ⟨h.k_eq, h.minReqs_eq, hsound, hwithin⟩⟩

/-- Every call keeps sums of verdicts in the buckets. -/
theorem Holds.step (h : s.Holds S config)
    (hmem : ∀ accepted now, e = .resolve accepted now → verdict accepted ∈ S)
    (hstep : s.step e = some s') : s'.Holds S config := by
  cases e with
  | allow now draw =>
    obtain ⟨-, hmap⟩ := Option.ite_none_right_eq_some.mp hstep
    obtain ⟨window, hsum, -, -, hholds⟩ := h.sum now
    rw [accept_eq hsum, Option.map_some, Option.some.injEq] at hmap
    rw [← hmap]
    exact hholds _ _
  | resolve accepted now =>
    obtain ⟨-, hmap⟩ := Option.ite_none_right_eq_some.mp hstep
    obtain ⟨window, hresolve, -, hholds⟩ := h.resolve (hmem accepted now rfl) now
    rw [hresolve, Option.map_some, Option.some.injEq] at hmap
    rw [← hmap]
    exact hholds _ _

/-- In every run the counts are between zero and the total. -/
theorem holds_of_reachable (htime : (normalizeGoogleBreakerConfig config).bucketTime ≠ 0)
    (h : (serving config).Reachable s) : s.Holds counts config := by
  refine h.invariant ?_ fun s e s' hs hstep =>
    hs.step (fun accepted _ _ => verdict_mem_counts accepted) hstep
  rintro s ⟨created, rfl⟩
  exact holds_start counts htime created

/-- What `sum` and then `dropRatio` give at a clock. -/
def ratioAt (s : Served) (now : Int) : Option ℚ :=
  (s.breaker.window.sum now).map fun ((accepts, total), _) => s.breaker.dropRatio accepts total

/-- After a verdict at a clock the ratio at that clock is the one with the verdict counted. -/
theorem Holds.ratioAt_resolve (h : s.Holds counts config) {window : RollingWindow}
    (hwindow : window.ring = s.breaker.window.ring.advance now) (accepted : Bool) :
    ∃ gb, s.breaker.resolve accepted now = some gb ∧
      ratioAt { s with breaker := gb } now =
        some (s.breaker.dropRatio (window.buckets.sum.accepts + (verdict accepted).accepts)
          (window.buckets.sum.total + (verdict accepted).total)) := by
  obtain ⟨added, hresolve, hring, hholds⟩ := h.resolve (verdict_mem_counts accepted) now
  obtain ⟨read, hsum, hread, -, -⟩ := (hholds s.issued s.answers).sum now
  have hadded : read.ring = window.ring.addCurrent (verdict accepted) := by
    rw [hwindow]
    rw [hring] at hread
    exact hread.trans (Rolling.advance_eq_self (Rolling.elapsed_advance_le _ now))
  have hlawful : window.ring.Lawful := by
    rw [hwindow]
    exact h.sound.lawful.advance now
  have hcounts : read.buckets.sum = window.buckets.sum + verdict accepted :=
    (congrArg (fun r => r.buckets.sum) hadded).trans (hlawful.sum_addCurrent _)
  refine ⟨_, hresolve, ?_⟩
  rw [ratioAt, hsum, Option.map_some, hcounts, Bucket.add_accepts, Bucket.add_total]
  rfl

end Served

/-- The default multiplier. -/
theorem defaultGoogleBreakerConfig_k :
    (normalizeGoogleBreakerConfig defaultGoogleBreakerConfig).k = 3 / 2 := ite_self _

/-- Whatever was called on a default breaker, the accepted are between zero and the total, the ratio
is at least zero and less than one, it is zero exactly when the total is at most one and a half
times the accepted, a failure does not lower it and a success does not raise it. -/
theorem default_drop_ratio_law (s : Served)
    (hs : (Served.serving defaultGoogleBreakerConfig).Reachable s) (now : Int) :
    ∃ accepts total window ratio,
      s.breaker.window.sum now = some ((accepts, total), window) ∧
      s.breaker.dropRatio accepts total = ratio ∧
      (0 ≤ accepts ∧ accepts ≤ total) ∧ (0 ≤ ratio ∧ ratio < 1) ∧
      (ratio = 0 ↔ (total : ℚ) ≤ 3 / 2 * accepts) ∧
      (∃ gb ratio', s.breaker.markFailure now = some gb ∧
        Served.ratioAt { s with breaker := gb } now = some ratio' ∧ ratio ≤ ratio') ∧
      (∃ gb ratio', s.breaker.markSuccess now = some gb ∧
        Served.ratioAt { s with breaker := gb } now = some ratio' ∧ ratio' ≤ ratio) := by
  have hholds := Served.holds_of_reachable (by decide) hs
  have hk : s.breaker.k = 3 / 2 := hholds.k_eq.trans defaultGoogleBreakerConfig_k
  obtain ⟨window, hsum, hring, hmem, -⟩ := hholds.sum now
  obtain ⟨haccepts, hle⟩ := mem_counts.mp hmem
  have htotal := haccepts.trans hle
  have hpos : 0 ≤ s.breaker.k := by
    rw [hk]
    norm_num
  have hone : 1 ≤ s.breaker.k := by
    rw [hk]
    norm_num
  refine ⟨_, _, window, _, hsum, rfl, ⟨haccepts, hle⟩, ⟨dropRatio_nonneg,
    dropRatio_lt_one hpos haccepts htotal⟩, ?_, ?_, ?_⟩
  · rw [dropRatio_eq_zero_iff htotal, hk]
  · obtain ⟨gb, hmark, hratio⟩ := hholds.ratioAt_resolve hring false
    refine ⟨gb, _, hmark, hratio, ?_⟩
    exact (dropRatio_le_failure hpos haccepts htotal).trans_eq (by simp [verdict])
  · obtain ⟨gb, hmark, hratio⟩ := hholds.ratioAt_resolve hring true
    refine ⟨gb, _, hmark, hratio, ?_⟩
    exact dropRatio_success_le hone haccepts hle

/-- The law where one request failed and one succeeded. -/
theorem default_drop_ratio_law_after_two :
    ∃ s, (Served.serving defaultGoogleBreakerConfig).run
        (Served.start defaultGoogleBreakerConfig 0)
        [.allow 0 0, .allow 0 0, .resolve false 1, .resolve true 2] = some s ∧
      ∃ accepts total window ratio,
        s.breaker.window.sum 3 = some ((accepts, total), window) ∧
        s.breaker.dropRatio accepts total = ratio ∧
        (0 ≤ accepts ∧ accepts ≤ total) ∧ (0 ≤ ratio ∧ ratio < 1) ∧
        (ratio = 0 ↔ (total : ℚ) ≤ 3 / 2 * accepts) ∧
        (∃ gb ratio', s.breaker.markFailure 3 = some gb ∧
          Served.ratioAt { s with breaker := gb } 3 = some ratio' ∧ ratio ≤ ratio') ∧
        (∃ gb ratio', s.breaker.markSuccess 3 = some gb ∧
          Served.ratioAt { s with breaker := gb } 3 = some ratio' ∧ ratio' ≤ ratio) := by
  have hruns : ((Served.serving defaultGoogleBreakerConfig).run
      (Served.start defaultGoogleBreakerConfig 0)
      [.allow 0 0, .allow 0 0, .resolve false 1, .resolve true 2]).isSome := by decide +kernel
  obtain ⟨s, hs⟩ := Option.isSome_iff_exists.mp hruns
  exact ⟨s, hs, default_drop_ratio_law s ⟨_, _, ⟨0, rfl⟩, hs⟩ 3⟩

/-- A multiplier that is not positive is replaced, and one between zero and one is not. -/
theorem one_le_normalized_k_iff (config : GoogleBreakerConfig) :
    1 ≤ (normalizeGoogleBreakerConfig config).k ↔ config.k ≤ 0 ∨ 1 ≤ config.k := by
  by_cases hk : config.k ≤ 0
  · have hdefault : (normalizeGoogleBreakerConfig config).k = 3 / 2 := if_pos hk
    rw [hdefault]
    exact iff_of_true (by norm_num) (.inl hk)
  · have hkept : (normalizeGoogleBreakerConfig config).k = config.k := if_neg hk
    rw [hkept, or_iff_right hk]

private theorem normalized_minReqs_pos (config : GoogleBreakerConfig) :
    0 < (normalizeGoogleBreakerConfig config).minReqs := by
  simp only [normalizeGoogleBreakerConfig, defaultGoogleBreakerConfig]
  split <;> omega

namespace Served

variable {config : GoogleBreakerConfig} {s s' : Served} {e : Event} {created : Int}

/-- Where all requests were accepted and the multiplier is at least one, none is turned away. -/
theorem Holds.unthrottled (h : s.Holds acceptedCounts config) (hun : s.Unthrottled)
    (hk : 1 ≤ (normalizeGoogleBreakerConfig config).k) (hstep : s.step e = some s') :
    s'.Unthrottled := by
  cases e with
  | allow now draw =>
    obtain ⟨-, hmap⟩ := Option.ite_none_right_eq_some.mp hstep
    obtain ⟨window, hsum, -, hmem, -⟩ := h.sum now
    obtain ⟨haccepts, heq⟩ := mem_acceptedCounts.mp hmem
    have hzero : s.breaker.dropRatio window.buckets.sum.accepts window.buckets.sum.total = 0 := by
      rw [dropRatio_eq_zero_iff (heq ▸ haccepts), h.k_eq, heq]
      refine le_mul_of_one_le_left ?_ hk
      exact_mod_cast heq ▸ haccepts
    rw [accept_eq hsum, hzero, Option.map_some, Option.some.injEq] at hmap
    intro err herr
    rw [← hmap] at herr
    rcases List.mem_append.mp herr with herr | herr
    · exact hun err herr
    · simpa using herr
  | resolve accepted now =>
    obtain ⟨-, hmap⟩ := Option.ite_none_right_eq_some.mp hstep
    obtain ⟨gb, -, rfl⟩ := Option.map_eq_some_iff.mp hmap
    exact hun

/-- A run without a rejected promise is not throttled if the multiplier is at least one. -/
theorem unthrottled_of_one_le (htime : (normalizeGoogleBreakerConfig config).bucketTime ≠ 0)
    (hk : 1 ≤ (normalizeGoogleBreakerConfig config).k) {events : List Event}
    (haccepting : ∀ e ∈ events, e.Accepting)
    (hrun : (serving config).run (start config created) events = some s) : s.Unthrottled := by
  have hguard : (serving config).Guarded (fun _ e => e.Accepting) (start config created) events :=
    (serving config).guarded_of_forall fun e he _ => haccepting e he
  refine ((serving config).run_guarded (P := fun s => s.Holds acceptedCounts config ∧ s.Unthrottled)
    ?_ ⟨holds_start _ htime created, nofun⟩ hguard hrun).2
  rintro s e s' ⟨hholds, hun⟩ haccepts hstep
  refine ⟨hholds.step (fun accepted now he => ?_) hstep, hholds.unthrottled hun hk hstep⟩
  subst he
  obtain rfl : accepted = true := haccepts
  exact verdict_mem_acceptedCounts

/-- Where the length of a bucket has come to zero, no call returns. -/
theorem unthrottled_of_zero (hzero : (normalizeGoogleBreakerConfig config).bucketTime = 0)
    {events : List Event}
    (hrun : (serving config).run (start config created) events = some s) : s.Unthrottled := by
  cases events with
  | nil =>
    cases hrun
    nofun
  | cons e events =>
    obtain ⟨s', hstep, -⟩ := (serving config).run_cons_iff.mp hrun
    cases e with
    | allow now draw =>
      obtain ⟨-, hmap⟩ := Option.ite_none_right_eq_some.mp hstep
      obtain ⟨r, haccept, -⟩ := Option.map_eq_some_iff.mp hmap
      have hsound := sound_of_accept (new_fits config created) haccept
      exact absurd hzero hsound.interval_ne
    | resolve accepted now => cases hstep

/-- So many requests were accepted at the time the breaker was made, and no others came. -/
structure Counted (config : GoogleBreakerConfig) (created n : Int) (s : Served) : Prop extends
    Holds acceptedCounts config s where
  /-- The window has not moved. -/
  unmoved : s.breaker.window.ring.lastTime = created
  /-- It holds these requests. -/
  sum_eq : s.breaker.window.buckets.sum = ⟨n, n⟩

variable {n : Int}

/-- No time has passed since the breaker was made. -/
theorem Counted.advance_eq (h : s.Counted config created n) :
    s.breaker.window.ring.advance created = s.breaker.window.ring := by
  refine Rolling.advance_eq_self ?_
  rw [Rolling.elapsed, h.unmoved, sub_self, Int.zero_tdiv]

/-- What `Allow` finds. -/
theorem Counted.sum (h : s.Counted config created n) :
    ∃ window, s.breaker.window.sum created = some ((n, n), window) ∧
      ∀ issued answers,
        Counted config created n ⟨{ s.breaker with window := window }, issued, answers⟩ := by
  obtain ⟨window, hsum, hring, -, hholds⟩ := h.toHolds.sum created
  rw [h.advance_eq] at hring
  have hcounts : window.buckets.sum = ⟨n, n⟩ :=
    (congrArg (fun r => r.buckets.sum) hring).trans h.sum_eq
  rw [hcounts] at hsum
  refine ⟨window, hsum, fun issued answers => ⟨hholds issued answers, ?_, hcounts⟩⟩
  exact (congrArg Rolling.lastTime hring).trans h.unmoved

/-- While there are few requests, a promise is issued. -/
theorem Counted.allow (h : s.Counted config created n)
    (hn : n < (normalizeGoogleBreakerConfig config).minReqs) :
    ∃ s', s.step (.allow created 0) = some s' ∧ s'.Counted config created n ∧ 0 < s'.issued := by
  obtain ⟨window, hsum, hcounted⟩ := h.sum
  have hfew : ¬ s.breaker.minReqs ≤ n := by
    rw [h.minReqs_eq]
    omega
  refine ⟨_, ?_, hcounted (s.issued + 1) (s.answers ++ [none]), Nat.succ_pos _⟩
  simp [step, accept_eq hsum, hfew]

/-- An accepted promise is counted. -/
theorem Counted.resolve (h : s.Counted config created n) (hissued : 0 < s.issued) :
    ∃ s', s.step (.resolve true created) = some s' ∧ s'.Counted config created (n + 1) := by
  obtain ⟨window, hresolve, hring, hholds⟩ :=
    h.toHolds.resolve verdict_mem_acceptedCounts created
  rw [h.advance_eq] at hring
  refine ⟨_, ?_, hholds s.issued s.answers, ?_, ?_⟩
  · simp [step, hissued, hresolve]
  · exact (congrArg Rolling.lastTime hring).trans h.unmoved
  · refine (congrArg (fun r => r.buckets.sum) hring).trans ?_
    refine (h.sound.lawful.sum_addCurrent _).trans ?_
    exact congrArg (· + verdict true) h.sum_eq

/-- With enough requests, all accepted, and a multiplier below one, a request is turned away. -/
theorem Counted.refuse (h : s.Counted config created n)
    (hn : (normalizeGoogleBreakerConfig config).minReqs = n)
    (hk : (normalizeGoogleBreakerConfig config).k < 1) :
    ∃ s', s.step (.allow created 0) = some s' ∧ ¬ s'.Unthrottled := by
  obtain ⟨window, hsum, -⟩ := h.sum
  have hpos : 0 < n := hn ▸ normalized_minReqs_pos config
  have hratio : 0 < s.breaker.dropRatio n n := by
    refine lt_of_le_of_ne dropRatio_nonneg (Ne.symm ?_)
    rw [Ne, dropRatio_eq_zero_iff hpos.le, h.k_eq, not_le]
    refine mul_lt_of_lt_one_left ?_ hk
    exact_mod_cast hpos
  have hmany : s.breaker.minReqs ≤ n := (h.minReqs_eq.trans hn).le
  refine ⟨⟨{ s.breaker with window := window }, s.issued,
    s.answers ++ [some errServiceUnavailable]⟩, ?_, fun hun => ?_⟩
  · simp [step, accept_eq hsum, hmany, hratio]
  · exact nomatch hun _ (List.mem_append_right _ List.mem_cons_self)

/-- So many requests, each accepted before the next, all when the breaker is made. -/
def rounds (created : Int) : Nat → List Event
  | 0 => []
  | n + 1 => rounds created n ++ [.allow created 0, .resolve true created]

/-- Requests up to the number below which none is turned away. -/
theorem run_rounds (htime : (normalizeGoogleBreakerConfig config).bucketTime ≠ 0)
    (created : Int) (n : Nat) (hn : n ≤ (normalizeGoogleBreakerConfig config).minReqs) :
    ∃ s, (serving config).run (start config created) (rounds created n) = some s ∧
      s.Counted config created n := by
  induction n with
  | zero =>
    refine ⟨_, rfl, holds_start _ htime created, rfl, ?_⟩
    exact List.sum_replicate _ _ |>.trans (nsmul_zero _)
  | succ n ih =>
    push_cast at hn
    obtain ⟨s, hrun, hcounted⟩ := ih (by omega)
    obtain ⟨t, hallow, hcounted, hissued⟩ := hcounted.allow (by omega)
    obtain ⟨u, hresolve, hcounted⟩ := hcounted.resolve hissued
    refine ⟨u, (serving config).run_append_iff.mpr ⟨s, hrun, ?_⟩, by exact_mod_cast hcounted⟩
    exact (serving config).run_cons_iff.mpr
      ⟨t, hallow, (serving config).run_cons_iff.mpr ⟨u, hresolve, rfl⟩⟩

/-- The calls of the rounds come when the breaker is made, and none of them is `Reject`. -/
theorem mem_rounds {n : Nat} (he : e ∈ rounds created n) : e.now = created ∧ e.Accepting := by
  induction n with
  | zero => exact absurd he List.not_mem_nil
  | succ n ih =>
    rcases List.mem_append.mp he with he | he
    · exact ih he
    · rcases List.mem_pair.mp he with rfl | rfl
      · exact ⟨rfl, trivial⟩
      · exact ⟨rfl, rfl⟩

end Served

/-- In every run in the order of time in which no promise is rejected, `Allow` turns no request
away, whatever numbers are drawn. -/
def NeverThrottled (config : GoogleBreakerConfig) : Prop :=
  ∀ created events s, (created :: events.map Event.now).Pairwise (· ≤ ·) →
    (∀ e ∈ events, e.Accepting) →
    (Served.serving config).run (Served.start config created) events = some s → s.Unthrottled

/-- With a multiplier between zero and one, the request after enough accepted ones may be turned
away. -/
theorem not_neverThrottled {config : GoogleBreakerConfig}
    (htime : (normalizeGoogleBreakerConfig config).bucketTime ≠ 0)
    (hk : (normalizeGoogleBreakerConfig config).k < 1) : ¬ NeverThrottled config := by
  intro hnever
  have hpos := normalized_minReqs_pos config
  obtain ⟨n, hn⟩ := Int.eq_ofNat_of_zero_le hpos.le
  obtain ⟨s, hrun, hcounted⟩ := Served.run_rounds htime 0 n hn.ge
  obtain ⟨s', hrefuse, hthrottled⟩ := hcounted.refuse hn hk
  have hevents : ∀ e ∈ Served.rounds 0 n ++ [.allow 0 0], e.now = 0 ∧ e.Accepting := by
    intro e he
    rcases List.mem_append.mp he with he | he
    · exact Served.mem_rounds he
    · obtain rfl := List.mem_singleton.mp he
      exact ⟨rfl, trivial⟩
  refine hthrottled (hnever 0 (Served.rounds 0 n ++ [.allow 0 0]) s' ?_ (fun e he =>
    (hevents e he).2) ?_)
  · have htimes : ∀ time ∈ (0 : Int) :: (Served.rounds 0 n ++ [Event.allow 0 0]).map Event.now,
        time = 0 := by
      intro time htime
      rcases List.mem_cons.mp htime with rfl | htime
      · rfl
      · obtain ⟨e, he, rfl⟩ := List.mem_map.mp htime
        exact (hevents e he).1
    exact List.pairwise_of_forall_mem_list fun a ha b hb => (htimes a ha).trans_le (htimes b hb).ge
  · exact (Served.serving config).run_append_iff.mpr
      ⟨s, hrun, (Served.serving config).run_cons_iff.mpr ⟨s', hrefuse, rfl⟩⟩

/-- A healthy service is never throttled exactly by the configurations whose multiplier is at least
one or is replaced by the default, and by those whose buckets have wrapped around to no length, with
which every `Allow` panics. -/
theorem never_throttled_iff (config : GoogleBreakerConfig) :
    NeverThrottled config ↔ (config.k ≤ 0 ∨ 1 ≤ config.k) ∨
      (normalizeGoogleBreakerConfig config).bucketTime = 0 := by
  rw [← one_le_normalized_k_iff]
  constructor
  · intro hnever
    by_contra hnot
    obtain ⟨hk, htime⟩ := not_or.mp hnot
    exact not_neverThrottled htime (not_le.mp hk) hnever
  · intro hor created events s _ haccepting hrun
    by_cases htime : (normalizeGoogleBreakerConfig config).bucketTime = 0
    · exact Served.unthrottled_of_zero htime hrun
    · exact Served.unthrottled_of_one_le htime (hor.resolve_right htime) haccepting hrun

/-- With a multiplier of one half, the request after one accepted one is turned away. With buckets
of `2 ^ 58` milliseconds no call returns. -/
theorem healthy_service_throttled_at_one_half :
    ((Served.serving ⟨1 / 2, 1, 1, 1⟩).run (Served.start ⟨1 / 2, 1, 1, 1⟩ 0)
      [.allow 0 0, .resolve true 0, .allow 0 0]).map Served.answers =
        some [none, some errServiceUnavailable] ∧ ¬ NeverThrottled ⟨1 / 2, 1, 1, 1⟩ ∧
      (newGoogleBreakerWithConfig ⟨1 / 2, 1, 2 ^ 58, 1⟩ 0).accept 0 0 = none := by
  refine ⟨by decide +kernel, not_neverThrottled (by decide) ?_, by decide +kernel⟩
  simp only [normalizeGoogleBreakerConfig]
  norm_num

end Stardust.Breaker
