import Stardust.Core.LookupTable
import Stardust.Breaker.Accounting

/-!
# Tables of breakers

The HTTP middlewares share one table of breakers by path, and the gRPC interceptor has another one
by method. A request first gets its breaker from the table and then runs its sections on it, while
other requests look up, store and use breakers in between. Who comes first to a path decides with
which configuration its breaker is made.
-/

namespace Stardust.Breaker

open Stardust.Core GoogleBreaker LookupTable

/-- A middleware on a route, by its constructor. -/
inductive HttpMiddleware where
  | circuitBreaker
  | circuitBreakerWithGoogleConfig (config : GoogleBreakerConfig)
  deriving DecidableEq

/-- What the getter of a middleware stores for a path that is absent. -/
def HttpMiddleware.newBreaker : HttpMiddleware → Int → GoogleBreaker
  | .circuitBreaker, now => newGoogleBreaker now
  | .circuitBreakerWithGoogleConfig config, now => newGoogleBreakerWithConfig config now

/-- The configuration of a middleware. -/
def HttpMiddleware.config : HttpMiddleware → GoogleBreakerConfig
  | .circuitBreaker => defaultGoogleBreakerConfig
  | .circuitBreakerWithGoogleConfig config => config

/-- The breakers by path, for the middlewares that are installed on the routes. -/
def httpBreakers (installed : String → HttpMiddleware → Bool) :
    Getter String HttpMiddleware Int GoogleBreaker :=
  ⟨HttpMiddleware.newBreaker, installed⟩

/-- The breakers by method, of `getBreaker`. -/
def breakerMap : Getter String Unit Int GoogleBreaker :=
  ⟨fun _ now => newGoogleBreaker now, fun _ _ => true⟩

/-- A table of breakers, and where each request stands after it got its breaker. -/
structure BreakerTable (Arg : Type) where
  lookups : LookupTable Nat String Arg GoogleBreaker
  phases : Nat → Phase

/-- A step of a request in the getter, or a section of it on its breaker. -/
inductive TableLabel (Arg : Type) where
  | look (p : Nat) (l : LookupStep String Arg Int)
  | act (p : Nat) (a : Action)

section

variable {Arg : Type}

/-- No request has arrived. -/
def BreakerTable.new : BreakerTable Arg := ⟨LookupTable.new, fun _ => .arrived⟩

/-- A request looks up its breaker, or uses it. -/
def BreakerTable.step (site : Site) (g : Getter String Arg Int GoogleBreaker)
    (s : BreakerTable Arg) : TableLabel Arg → Option (BreakerTable Arg)
  | .look p l => (s.lookups.step g p l).map fun lookups => { s with lookups := lookups }
  | .act p a =>
    match s.lookups.pc p with
    | .returned _ _ b =>
      (s.lookups.objects[b]?).bind fun gb =>
        (advance gb site a (s.phases p)).map fun (phase, gb, _) =>
          ⟨s.lookups.update b gb, Function.update s.phases p phase⟩
    | _ => none

/-- The requests of a table that is empty at first. -/
def breakerTables (site : Site) (g : Getter String Arg Int GoogleBreaker) :
    System (BreakerTable Arg) (TableLabel Arg) where
  init s := s = .new
  step := BreakerTable.step site g

end

/-- The requests behind the HTTP middlewares. -/
def httpTable (installed : String → HttpMiddleware → Bool) :
    System (BreakerTable HttpMiddleware) (TableLabel HttpMiddleware) :=
  breakerTables .circuitBreaker (httpBreakers installed)

/-- The requests behind the interceptor. -/
def methodTable : System (BreakerTable Unit) (TableLabel Unit) :=
  breakerTables .unaryBreakerInterceptor breakerMap

/-- A breaker works with a configuration. -/
structure GoogleBreaker.BuiltFrom (config : GoogleBreakerConfig) (gb : GoogleBreaker) : Prop where
  k_eq : gb.k = (normalizeGoogleBreakerConfig config).k
  minReqs_eq : gb.minReqs = (normalizeGoogleBreakerConfig config).minReqs
  buckets_eq : (gb.window.size : Int) = (normalizeGoogleBreakerConfig config).buckets
  bucketTime_eq : gb.window.interval = (normalizeGoogleBreakerConfig config).bucketTime

/-- What a breaker takes from its configuration. -/
def GoogleBreakerConfig.settings (config : GoogleBreakerConfig) : ℚ × Int × Int × Int :=
  let config := normalizeGoogleBreakerConfig config
  (config.k, config.buckets, config.bucketTime, config.minReqs)

/-! ### What the sections leave of a breaker -/

section Sections

variable {gb gb' : GoogleBreaker} {site : Site} {a : Action} {phase phase' : Phase}
  {calls : List WindowCall} {config config' : GoogleBreakerConfig}

/-- Calls on a window keep the number and the length of its buckets. -/
theorem RollingWindow.foldlM_call_shape {rw rw' : RollingWindow} (hsound : rw.Sound)
    (h : calls.foldlM RollingWindow.call rw = some rw') :
    rw'.size = rw.size ∧ rw'.interval = rw.interval := by
  induction calls generalizing rw with
  | nil =>
    cases h
    exact ⟨rfl, rfl⟩
  | cons c calls ih =>
    obtain ⟨next, hcall, hnext, hring⟩ := windows.call_spec rw c hsound
    rw [List.foldlM_cons, show rw.call c = some next from hcall] at h
    obtain ⟨hsize, htime⟩ := ih hnext h
    obtain ⟨hsize', htime'⟩ := rw.ring.touch_shape c.touch
    have hring' : next.ring = rw.ring.touch c.touch := hring
    rw [← hring'] at hsize' htime'
    refine ⟨hsize.trans ?_, htime.trans htime'⟩
    rw [show next.size = next.ring.size from hnext.size_eq, hsize']
    exact hsound.size_eq.symm

/-- Sections only work on the window. -/
theorem advance_settings (hsound : gb.window.Sound)
    (h : advance gb site a phase = some (phase', gb', calls)) :
    gb'.k = gb.k ∧ gb'.minReqs = gb.minReqs := by
  unfold advance at h
  split at h
  · rename_i now draw
    obtain ⟨err, window, haccept, -, -⟩ := accept_spec hsound now draw
    rw [haccept, Option.map_some] at h
    cases h
    exact ⟨rfl, rfl⟩
  · cases h
    exact ⟨rfl, rfl⟩
  · cases h
    exact ⟨rfl, rfl⟩
  · split at h
    · cases h
      exact ⟨rfl, rfl⟩
    · rename_i now result _ accepted _
      obtain ⟨window, hresolve, -, -⟩ := resolve_spec hsound accepted now
      rw [hresolve] at h
      cases h
      exact ⟨rfl, rfl⟩
  · cases h

/-- A section that changes the breaker has called its window. -/
theorem eq_or_sound_of_advance (hfits : gb.window.Fits)
    (h : advance gb site a phase = some (phase', gb', calls)) :
    gb' = gb ∨ gb.window.Sound := by
  unfold advance at h
  split at h
  · obtain ⟨r, haccept, -⟩ := Option.map_eq_some_iff.mp h
    exact .inr (sound_of_accept hfits haccept)
  · cases h
    exact .inl rfl
  · cases h
    exact .inl rfl
  · split at h
    · cases h
      exact .inl rfl
    · split at h
      · cases h
        exact .inl rfl
      · rename_i hresolve
        exact .inr (sound_of_resolve hfits hresolve)
  · cases h

/-- A breaker keeps working with its configuration. -/
theorem GoogleBreaker.BuiltFrom.advance (hbuilt : gb.BuiltFrom config) (hsound : gb.window.Sound)
    (h : advance gb site a phase = some (phase', gb', calls)) : gb'.BuiltFrom config := by
  obtain ⟨hk, hminReqs⟩ := advance_settings hsound h
  obtain ⟨hsize, htime⟩ := RollingWindow.foldlM_call_shape hsound (advance_section hsound h).replays
  refine ⟨hk.trans hbuilt.k_eq, hminReqs.trans hbuilt.minReqs_eq, ?_,
    htime.trans hbuilt.bucketTime_eq⟩
  rw [hsize]
  exact hbuilt.buckets_eq

/-- A new breaker works with the configuration it is made from. -/
theorem GoogleBreaker.builtFrom_new (config : GoogleBreakerConfig) (now : Int) :
    (newGoogleBreakerWithConfig config now).BuiltFrom config :=
  ⟨rfl, rfl, Int.toNat_of_nonneg (buckets_pos config).le, rfl⟩

/-- A breaker works with all configurations that come down to the same settings, and with no
other. -/
theorem GoogleBreaker.BuiltFrom.settings_eq_iff (h : gb.BuiltFrom config) :
    config.settings = config'.settings ↔ gb.BuiltFrom config' := by
  simp only [GoogleBreakerConfig.settings, Prod.mk.injEq]
  constructor
  · rintro ⟨hk, hbuckets, htime, hminReqs⟩
    exact ⟨h.k_eq.trans hk, h.minReqs_eq.trans hminReqs, h.buckets_eq.trans hbuckets,
      h.bucketTime_eq.trans htime⟩
  · intro h'
    exact ⟨h.k_eq.symm.trans h'.k_eq, h.buckets_eq.symm.trans h'.buckets_eq,
      h.bucketTime_eq.symm.trans h'.bucketTime_eq, h.minReqs_eq.symm.trans h'.minReqs_eq⟩

end Sections

/-! ### What holds of a table -/

section Table

variable {Arg : Type} {site : Site} {g : Getter String Arg Int GoogleBreaker}
  {config : Arg → GoogleBreakerConfig} {s s' : BreakerTable Arg} {l : TableLabel Arg}

/-- A breaker was made for a request of its key. -/
def Works (g : Getter String Arg Int GoogleBreaker) (config : Arg → GoogleBreakerConfig)
    (key : String) (gb : GoogleBreaker) : Prop :=
  gb.window.Fits ∧ ∃ arg, g.serves key arg = true ∧ gb.BuiltFrom (config arg)

/-- The breakers of a getter are made with the configurations of the calls. -/
def Builds (g : Getter String Arg Int GoogleBreaker) (config : Arg → GoogleBreakerConfig) : Prop :=
  ∀ arg now, g.build arg now = newGoogleBreakerWithConfig (config arg) now

/-- So is every breaker that the getter makes. -/
theorem Builds.works (h : Builds g config) (key : String) (arg : Arg) (now : Int)
    (hserves : g.serves key arg = true) : Works g config key (g.build arg now) := by
  rw [h arg now]
  exact ⟨new_fits _ now, arg, hserves, builtFrom_new _ now⟩

/-- A section leaves the breaker as it was made. -/
theorem Works.advance {key : String} {gb gb' : GoogleBreaker} {a : Action} {phase phase' : Phase}
    {calls : List WindowCall} (hworks : Works g config key gb)
    (h : advance gb site a phase = some (phase', gb', calls)) : Works g config key gb' := by
  obtain ⟨hfits, arg, hserves, hbuilt⟩ := hworks
  obtain rfl | hsound := eq_or_sound_of_advance hfits h
  · exact ⟨hfits, arg, hserves, hbuilt⟩
  · exact ⟨(advance_section hsound h).sound.toFits, arg, hserves, hbuilt.advance hsound h⟩

/-- What holds of a table in every state. -/
structure BreakerTable.Orderly (g : Getter String Arg Int GoogleBreaker)
    (config : Arg → GoogleBreakerConfig) (s : BreakerTable Arg) : Prop where
  sound : s.lookups.Sound g
  works : s.lookups.Holds (Works g config)

/-- One table follows another: no entry is replaced, and no request changes its breaker. -/
structure BreakerTable.Follows (s s' : BreakerTable Arg) : Prop where
  keeps : s.lookups.Keeps s'.lookups
  returned : ∀ p key arg b, s.lookups.pc p = .returned key arg b →
    s'.lookups.pc p = .returned key arg b

private theorem BreakerTable.Follows.refl (s : BreakerTable Arg) : s.Follows s :=
  ⟨fun _ _ h => h, fun _ _ _ _ h => h⟩

private theorem BreakerTable.Follows.trans {t : BreakerTable Arg} (h : s.Follows t)
    (h' : t.Follows s') : s.Follows s' :=
  ⟨fun key i hkey => h'.keeps key i (h.keeps key i hkey),
    fun p key arg b hp => h'.returned p key arg b (h.returned p key arg b hp)⟩

private theorem BreakerTable.orderly_new :
    (BreakerTable.new : BreakerTable Arg).Orderly g config := by
  refine ⟨LookupTable.sound_new, ?_⟩
  intro key i gb hkey
  cases hkey

/-- A section of a request exposes its breaker. -/
theorem BreakerTable.step_act {p : Nat} {a : Action} (h : s.step site g (.act p a) = some s') :
    ∃ key arg b gb phase gb' calls, s.lookups.pc p = .returned key arg b ∧
      s.lookups.objects[b]? = some gb ∧ advance gb site a (s.phases p) = some (phase, gb', calls) ∧
      s' = ⟨s.lookups.update b gb', Function.update s.phases p phase⟩ := by
  simp only [BreakerTable.step] at h
  split at h
  · rename_i key arg b hpc
    obtain ⟨gb, hgb, h⟩ := Option.bind_eq_some_iff.mp h
    obtain ⟨⟨phase, gb', calls⟩, hadvance, rfl⟩ := Option.map_eq_some_iff.mp h
    exact ⟨key, arg, b, gb, phase, gb', calls, hpc, hgb, hadvance, rfl⟩
  · cases h

/-- Every step keeps the table in order and follows it. -/
theorem BreakerTable.Orderly.step (hg : Builds g config) (hs : s.Orderly g config)
    (h : s.step site g l = some s') : s'.Orderly g config ∧ s.Follows s' := by
  cases l with
  | look p l =>
    obtain ⟨lookups, hlook, rfl⟩ := Option.map_eq_some_iff.mp h
    have hmoves := step_moves hlook
    refine ⟨⟨hs.sound.moves hmoves, hs.works.moves hs.sound hmoves hg.works⟩, ?_⟩
    exact ⟨hmoves.keeps hs.sound, fun _ _ _ _ => hmoves.returned hs.sound⟩
  | act p a =>
    obtain ⟨key, arg, b, gb, phase, gb', calls, hpc, hgb, hadvance, rfl⟩ := step_act h
    have hkey := hs.sound.table_of_returned hpc
    have hworks : Works g config key gb' := (hs.works key b gb hkey hgb).advance hadvance
    refine ⟨⟨hs.sound.update b gb', hs.works.update hs.sound hkey hworks⟩, ?_⟩
    exact ⟨fun _ _ h => h, fun _ _ _ _ h => h⟩

private theorem BreakerTable.Orderly.run (hg : Builds g config) (hs : s.Orderly g config)
    {ls : List (TableLabel Arg)} (h : (breakerTables site g).run s ls = some s') :
    s'.Orderly g config ∧ s.Follows s' := by
  refine (breakerTables site g).run_invariant (P := fun t => t.Orderly g config ∧ s.Follows t)
    ?_ ⟨hs, .refl s⟩ h
  intro t l t' ht hstep
  obtain ⟨horderly, hfollows⟩ := ht.1.step hg hstep
  exact ⟨horderly, ht.2.trans hfollows⟩

private theorem BreakerTable.orderly_of_reachable (hg : Builds g config)
    (h : (breakerTables site g).Reachable s) : s.Orderly g config := by
  obtain ⟨_, ls, rfl, hrun⟩ := h
  exact (orderly_new.run hg hrun).1

end Table

private theorem builds_httpBreakers (installed : String → HttpMiddleware → Bool) :
    Builds (httpBreakers installed) HttpMiddleware.config := by
  intro m now
  cases m <;> rfl

/-! ### One breaker for each key -/

/-- In every state, requests have the same breaker exactly when they asked for the same key, and
from then on no entry is replaced and no request changes its breaker. -/
def OnePerKey {Arg : Type} (sys : System (BreakerTable Arg) (TableLabel Arg)) : Prop :=
  ∀ s, sys.Reachable s →
    (∀ p q key key' arg arg' b b', s.lookups.pc p = .returned key arg b →
      s.lookups.pc q = .returned key' arg' b' → (key = key' ↔ b = b')) ∧
    ∀ ls s', sys.run s ls = some s' → s.Follows s'

private theorem onePerKey_breakerTables {Arg : Type} {site : Site}
    {g : Getter String Arg Int GoogleBreaker} {config : Arg → GoogleBreakerConfig}
    (hg : Builds g config) : OnePerKey (breakerTables site g) := by
  intro s hs
  have horderly := BreakerTable.orderly_of_reachable hg hs
  refine ⟨fun p q key key' arg arg' b b' hp hq => horderly.sound.key_eq_iff hp hq, ?_⟩
  intro ls s' hrun
  exact (horderly.run hg hrun).2

/-- Paths and methods have one breaker each, in every interleaving of the requests. -/
theorem one_breaker_per_path :
    (∀ installed, OnePerKey (httpTable installed)) ∧ OnePerKey methodTable :=
  ⟨fun installed => onePerKey_breakerTables (builds_httpBreakers installed),
    onePerKey_breakerTables fun _ _ => rfl⟩

/-- The steps of a request that stores its breaker. -/
def storing {Arg : Type} (p : Nat) (key : String) (arg : Arg) : List (TableLabel Arg) :=
  [.look p (.call key arg), .look p .rLock, .look p .readLookup, .look p .rUnlock, .look p .lock,
    .look p .writeLookup, .look p (.insert 0), .look p .unlock]

/-- The steps of a request that finds its breaker. -/
def finding {Arg : Type} (p : Nat) (key : String) (arg : Arg) : List (TableLabel Arg) :=
  [.look p (.call key arg), .look p .rLock, .look p .readLookup, .look p .rUnlock]

/-- Both requests miss, and the second to get the write lock finds the other's breaker. -/
def missingBoth : List (TableLabel Unit) :=
  finding 0 "/pkg.Users/Get" () ++ finding 1 "/pkg.Users/Get" () ++
    [.look 1 .lock, .look 1 .writeLookup, .look 1 (.insert 0), .look 1 .unlock,
      .look 0 .lock, .look 0 .writeLookup, .look 0 .unlock]

/-- Two requests that race for a method return with the same breaker, and keep it. -/
theorem one_breaker_for_two_requests :
    ∃ s, methodTable.run .new missingBoth = some s ∧
      s.lookups.pc 0 = .returned "/pkg.Users/Get" () 0 ∧
      s.lookups.pc 1 = .returned "/pkg.Users/Get" () 0 ∧
      ∀ ls s', methodTable.run s ls = some s' → s.Follows s' :=
  ⟨_, rfl, rfl, rfl, (one_breaker_per_path.2 _ ⟨.new, missingBoth, rfl, rfl⟩).2⟩

/-! ### The configuration of a breaker -/

/-- Every request that a configured middleware admits or turns away is judged by a breaker that
works with its configuration. -/
def JudgedByConfig (installed : String → HttpMiddleware → Bool) : Prop :=
  ∀ s, (httpTable installed).Reachable s → ∀ p now draw s',
    (httpTable installed).step s (.act p (.allow now draw)) = some s' →
    ∀ path config b gb,
      s.lookups.pc p = .returned path (.circuitBreakerWithGoogleConfig config) b →
      s.lookups.objects[b]? = some gb → gb.BuiltFrom config

variable {installed : String → HttpMiddleware → Bool}

/-- The first request to a path stores the breaker of its middleware. -/
theorem run_storing {path : String} {m : HttpMiddleware} (hm : installed path m = true) :
    (httpTable installed).run .new (storing 0 path m) =
      some ⟨(LookupTable.new.store path (m.newBreaker 0)).move 0 (.returned path m 0),
        fun _ => .arrived⟩ := by
  simp [System.run, httpTable, breakerTables, BreakerTable.step, LookupTable.step, storing,
    BreakerTable.new, LookupTable.new, LookupTable.move, LookupTable.store, httpBreakers, hm]

/-- Two middlewares on one path lead to a breaker that the first one makes and the second one
uses. -/
theorem reachable_shared {path : String} {m m' : HttpMiddleware} (hm : installed path m = true)
    (hm' : installed path m' = true) :
    ∃ s, (httpTable installed).Reachable s ∧ s.lookups.pc 1 = .returned path m' 0 ∧
      s.lookups.objects = [m.newBreaker 0] ∧ s.phases 1 = .arrived := by
  have hrun : (httpTable installed).run
      ⟨(new.store path (m.newBreaker 0)).move 0 (.returned path m 0), fun _ => .arrived⟩
      (finding 1 path m') = some
      ⟨((new.store path (m.newBreaker 0)).move 0 (.returned path m 0)).move 1
        (.returned path m' 0), fun _ => .arrived⟩ := by
    simp [System.run, httpTable, breakerTables, BreakerTable.step, step, finding,
      new, move, store, httpBreakers, hm']
  exact ⟨_, ⟨.new, _, rfl, (System.run_append_iff _).mpr ⟨_, run_storing hm, hrun⟩⟩, rfl, rfl, rfl⟩

/-- A breaker that works lets its next request ask. -/
theorem exists_allow {gb : GoogleBreaker} (h : gb.window.Sound) (site : Site) (now : Int)
    (draw : ℚ) : ∃ phase gb' calls,
      advance gb site (.allow now draw) .arrived = some (phase, gb', calls) := by
  obtain ⟨err, window, haccept, -, -⟩ := accept_spec h now draw
  simp only [advance, haccept, Option.map_some]
  exact ⟨_, _, _, rfl⟩

/-- A request is judged only by a breaker whose window works. -/
theorem sound_of_allow {s s' : BreakerTable HttpMiddleware} {p b : Nat} {now : Int} {draw : ℚ}
    {path : String} {m : HttpMiddleware} {gb : GoogleBreaker} (hfits : gb.window.Fits)
    (hpc : s.lookups.pc p = .returned path m b) (hgb : s.lookups.objects[b]? = some gb)
    (hstep : (httpTable installed).step s (.act p (.allow now draw)) = some s') :
    gb.window.Sound := by
  obtain ⟨key, arg, b', found, phase, gb', calls, hpc', hfound, hadvance, -⟩ :=
    @BreakerTable.step_act _ _ (httpBreakers installed) _ _ _ _ hstep
  rw [hpc] at hpc'
  cases hpc'
  rw [hgb] at hfound
  cases hfound
  exact sound_of_advance_allow hfits hadvance

/-- A configured middleware judges by its configuration exactly when all middlewares that share a
path with it come down to the same settings; apart from those whose buckets have wrapped around to
no length, with whose breaker every `Allow` panics. -/
theorem judged_by_config_iff (installed : String → HttpMiddleware → Bool) :
    JudgedByConfig installed ↔
      ∀ path config m, installed path (.circuitBreakerWithGoogleConfig config) = true →
        installed path m = true →
        m.config.settings = config.settings ∨
          (normalizeGoogleBreakerConfig m.config).bucketTime = 0 := by
  constructor
  · intro hjudged path config m hconfig hm
    by_cases htime : (normalizeGoogleBreakerConfig m.config).bucketTime = 0
    · exact .inr htime
    · left
      obtain ⟨s, hs, hpc, hobjects, hphase⟩ := reachable_shared hm hconfig
      have hgb : s.lookups.objects[0]? = some (newGoogleBreakerWithConfig m.config 0) := by
        rw [hobjects]
        exact congrArg some (builds_httpBreakers installed m 0)
      obtain ⟨phase, gb', calls, hadvance⟩ :=
        exists_allow (new_sound htime 0) .circuitBreaker 0 0
      have hstep : (httpTable installed).step s (.act 1 (.allow 0 0)) =
          some ⟨s.lookups.update 0 gb', Function.update s.phases 1 phase⟩ := by
        simp [httpTable, breakerTables, BreakerTable.step, hpc, hgb, hphase, hadvance]
      have hbuilt := hjudged s hs 1 0 0 _ hstep path config 0 _ hpc hgb
      exact (builtFrom_new m.config 0).settings_eq_iff.mpr hbuilt
  · intro hsame s hs p now draw s' hstep path config b gb hpc hgb
    have horderly := BreakerTable.orderly_of_reachable (builds_httpBreakers installed) hs
    have hserves : installed path (.circuitBreakerWithGoogleConfig config) = true :=
      horderly.sound.served p path _ (by rw [hpc]; rfl)
    have hkey := horderly.sound.table_of_returned hpc
    obtain ⟨hfits, m, hm, hbuilt⟩ := horderly.works path b gb hkey hgb
    obtain heq | hzero := hsame path config m hserves hm
    · exact hbuilt.settings_eq_iff.mp heq
    · have hsound := sound_of_allow hfits hpc hgb hstep
      exact absurd (hbuilt.bucketTime_eq.trans hzero) hsound.interval_ne

/-- A configuration with which the breaker judges from the first request on. -/
def strictConfig : GoogleBreakerConfig := ⟨1, 10, 100, 1⟩

/-- `CircuitBreaker()` for all routes, and a strict configuration for one of them. -/
def strictOrders : String → HttpMiddleware → Bool
  | _, .circuitBreaker => true
  | path, .circuitBreakerWithGoogleConfig config => path = "/orders" ∧ config = strictConfig

/-- The outer middleware makes the breaker of the path; the request fails, and so the strict
breaker would turn the next request away. -/
def strictSchedule : List (TableLabel HttpMiddleware) :=
  storing 0 "/orders" .circuitBreaker ++
    [.act 0 (.allow 0 0), .act 0 (.bodyReturns ⟨none, 500⟩), .act 0 (.resolve 0)] ++
    finding 1 "/orders" (.circuitBreakerWithGoogleConfig strictConfig) ++ [.act 1 (.allow 0 0)]

/-- The request of the strict middleware is admitted by a breaker of the default configuration; one
of its own configuration, after the same failure, turns it away. -/
theorem strict_route_judged_by_default :
    (((httpTable strictOrders).run .new strictSchedule).map fun s =>
      (s.lookups.pc 1, s.phases 1, (s.lookups.objects[0]?).map fun gb => (gb.k, gb.minReqs))) =
        some (.returned "/orders" (.circuitBreakerWithGoogleConfig strictConfig) 0, .running,
          some (3 / 2, 100)) ∧
      (((newGoogleBreakerWithConfig strictConfig 0).markFailure 0).bind fun gb =>
        (gb.accept 0 0).map Prod.fst) = some (some errServiceUnavailable) :=
  ⟨by decide +kernel, by decide +kernel⟩

end Stardust.Breaker
