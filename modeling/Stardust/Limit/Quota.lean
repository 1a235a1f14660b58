import Stardust.Core.System
import Stardust.Limit.PeriodLimit

/-!
# The quota over every interval

A counter starts with the first call after the one before it has ended, and allows its quota
from then on. An interval that begins inside one counter and ends inside the next meets the
calls of both, so the quota holds over every interval as long as a counter starts only after
a period without allowed calls. How long a counter lasts plays no part in this: the limiter's
own counters of a very long period end early.
-/

namespace Stardust.Limit

open Stardust.Core PeriodLimiter Function

/-- An answered call. -/
structure Taken where
  key : String
  time : Int
  status : LimitStatus
  deriving DecidableEq, Repr

/-- The call was allowed on a key in a half-open interval. -/
def Taken.AllowedIn (e : Taken) (key : String) (lo hi : Int) : Prop :=
  e.key = key ∧ e.status = .allowed ∧ lo ≤ e.time ∧ e.time < hi

instance (e : Taken) (key : String) (lo hi : Int) : Decidable (e.AllowedIn key lo hi) :=
  inferInstanceAs (Decidable (_ ∧ _))

/-- A limiter that always or never has a server at hand, with the calls answered so far. -/
structure Limited where
  limiter : PeriodLimiter
  /-- The keys of the server, if there is one. -/
  rdb : Option Store
  /-- The clock of the last event. -/
  clock : Int
  /-- The calls in order. -/
  log : List Taken

/-- What happens to a limiter. -/
inductive LimitLabel where
  | take (key : String) (now : Int)
  /-- A pass of the cleanup loop, which reads its clock before it has the lock. -/
  | cleanup (read now : Int)
  deriving DecidableEq, Repr

namespace Limited

/-- Answer a call and record the answer. -/
def answer (s : Limited) (key : String) (now : Int) : Limited :=
  let (status, limiter, rdb) := s.limiter.take s.rdb false key now
  ⟨limiter, rdb, now, s.log ++ [⟨key, now, status⟩]⟩

/-- Events come in the order of the clock. -/
def step (s : Limited) : LimitLabel → Option Limited
  | .take key now => if s.clock ≤ now then some (s.answer key now) else none
  | .cleanup read now =>
    if s.clock ≤ now ∧ read ≤ now then
      some { s with limiter := s.limiter.cleanup read, clock := now }
    else none

/-- A new limiter whose keys the server does not have. -/
structure Fresh (period quota : Int) (s : Limited) : Prop where
  limiter : ∃ keyPrefix, s.limiter = newPeriodLimiter period quota keyPrefix
  /-- The server has none of its keys. -/
  absent : ∀ store ∈ s.rdb, ∀ key, store (s.limiter.fullKey key) = none
  /-- No call has been answered. -/
  silent : s.log = []

/-- The runs of a limiter. -/
def limiters (period quota : Int) : System Limited LimitLabel := ⟨Fresh period quota, step⟩

/-- At most the quota is allowed on a key in every half-open interval of the period. -/
def WithinQuota (period quota : Int) (s : Limited) : Prop :=
  ∀ key lo, (s.log.countP fun e => e.AllowedIn key lo (lo + period * second) : Int) ≤ quota

/-- The counter of a key, wherever it is kept. -/
def counter (s : Limited) (key : String) : Option LocalCounter :=
  match s.rdb with
  | none => s.limiter.localCount key
  | some store =>
    (store (s.limiter.fullKey key)).bind fun c => c.deadline.map fun d => ⟨c.value, d⟩

/-- How long a counter lasts: as long as the server is told, or as the limiter's own window. -/
def lifetime (s : Limited) : Int :=
  match s.rdb with
  | none => s.limiter.localWindow
  | some _ => s.limiter.period * second

/-- A call that starts a counter comes a period after every allowed call on its key. -/
def StartsQuietly (period : Int) (s : Limited) : LimitLabel → Prop
  | .take key now => (∀ c ∈ s.counter key, c.expireAt < now) →
      ∀ e ∈ s.log, e.key = key → e.status = .allowed → e.time + period * second ≤ now
  | .cleanup _ _ => True

instance (period : Int) (s : Limited) : ∀ l, Decidable (s.StartsQuietly period l)
  | .take key now => inferInstanceAs (Decidable ((∀ c ∈ s.counter key, c.expireAt < now) →
      ∀ e ∈ s.log, e.key = key → e.status = .allowed → e.time + period * second ≤ now))
  | .cleanup _ _ => isTrue trivial

/-- What holds of the counters in every run. -/
structure Kept (period quota : Int) (s : Limited) : Prop where
  /-- The settings do not change. -/
  settings : s.limiter.period = period ∧ s.limiter.quota = quota
  /-- A counter has counted a call. -/
  positive : ∀ key c, s.counter key = some c → 1 ≤ c.count
  /-- Every counter on the server has a deadline. -/
  expiring : ∀ store ∈ s.rdb, ∀ key c, store (s.limiter.fullKey key) = some c →
    ∃ d, c.deadline = some d

/-- The effect of a call on the counter of its key and on the record. -/
inductive Effect (quota : Int) (s s' : Limited) (key : String) (now : Int) : Prop where
  | started (hold : ∀ c ∈ s.counter key, c.expireAt < now)
      (hcounter : s'.counter key = some ⟨1, now + s.lifetime⟩)
      (hlog : s'.log = s.log ++ [⟨key, now, .allowed⟩])
  /-- The call is counted, and allowed up to the quota. -/
  | counted (c : LocalCounter) (hc : s.counter key = some c) (hlive : now ≤ c.expireAt)
      (hcounter : s'.counter key = some ⟨c.count + 1, c.expireAt⟩)
      (hlog : s'.log = s.log ++ [⟨key, now, if c.count + 1 > quota then .overQuota else .allowed⟩])

variable {period quota : Int} {s s' : Limited} {key : String} {now : Int} {l : LimitLabel}

/-- A call in the limiter's own table. -/
theorem answer_local (h : s.Kept period quota) (hrdb : s.rdb = none) :
    Effect quota s (s.answer key now) key now ∧
      ∀ k, k ≠ key → (s.answer key now).counter k = s.counter k := by
  obtain ⟨limiter, rdb, clock, log⟩ := s
  subst hrdb
  obtain ⟨rfl, rfl⟩ := h.settings
  have hother : ∀ c k, k ≠ key →
      (limiter.setCounter key c).localCount k = limiter.localCount k :=
    fun c k hk => update_of_ne hk ..
  have hself : ∀ c, (limiter.setCounter key c).localCount key = some c :=
    fun c => update_self ..
  cases hc : limiter.localCount key with
  | none =>
    have htake : limiter.localTake key now =
        (.allowed, limiter.setCounter key ⟨1, now + limiter.localWindow⟩) := by
      simp only [localTake, hc]
    simp only [answer, take, htake]
    exact ⟨.started (by simp [counter, hc]) (hself _) rfl, hother _⟩
  | some c =>
    by_cases hlive : now > c.expireAt
    · have htake : limiter.localTake key now =
          (.allowed, limiter.setCounter key ⟨1, now + limiter.localWindow⟩) := by
        simp only [localTake, hc, if_pos hlive]
      simp only [answer, take, htake]
      refine ⟨.started ?_ (hself _) rfl, hother _⟩
      rintro c' hc'
      obtain rfl : c = c' := by simpa [counter, hc] using hc'
      exact hlive
    · have htake : limiter.localTake key now =
          (if c.count + 1 > limiter.quota then .overQuota else .allowed,
            limiter.setCounter key { c with count := c.count + 1 }) := by
        simp only [localTake, hc, if_neg hlive]
      simp only [answer, take, htake]
      exact ⟨.counted c hc (by omega) (hself _) rfl, hother _⟩

/-- A call on the server. -/
theorem answer_server (h : s.Kept period quota) (hperiod : 1 ≤ period) (hquota : 1 ≤ quota)
    {store : Store} (hrdb : s.rdb = some store) :
    Effect quota s (s.answer key now) key now ∧
      ∀ k c, k ≠ key → (s.answer key now).counter k = some c → s.counter k = some c := by
  obtain ⟨limiter, rdb, clock, log⟩ := s
  subst hrdb
  obtain ⟨rfl, rfl⟩ := h.settings
  have hother : ∀ stored k c, k ≠ key →
      counter ⟨limiter, some (update (store.visible now) (limiter.fullKey key) stored),
        now, log⟩ k = some c → counter ⟨limiter, some store, clock, log⟩ k = some c := by
    intro stored k c hk hc
    simp only [counter, update_of_ne (mt fullKey_inj.mp hk),
      Option.bind_eq_some_iff] at hc ⊢
    obtain ⟨c', hc', hmap⟩ := hc
    exact ⟨c', (Option.filter_eq_some_iff.mp hc').1, hmap⟩
  by_cases hlive : ∃ c d, store (limiter.fullKey key) = some c ∧ c.deadline = some d ∧ now ≤ d
  · obtain ⟨c, d, hc, hd, hle⟩ := hlive
    have hvisible : store.visible now (limiter.fullKey key) = some c := by
      simp [Store.visible, hc, hd, hle]
    have hcounter : counter ⟨limiter, some store, clock, log⟩ key = some ⟨c.value, d⟩ := by
      simp [counter, hc, hd]
    have hpos := h.positive key _ hcounter
    simp only [answer, take, Bool.false_eq_true, if_false,
      periodLimitScript_present hpos hvisible]
    refine ⟨.counted ⟨c.value, d⟩ hcounter hle ?_ ?_, hother _⟩
    · simp [counter, hd]
    · by_cases hover : c.value + 1 > limiter.quota <;> simp [hover]
  · have hexpired : ∀ c d,
        store (limiter.fullKey key) = some c → c.deadline = some d → d < now := by
      intro c d hc hd
      by_contra hle
      exact hlive ⟨c, d, hc, hd, by omega⟩
    have hvisible : store.visible now (limiter.fullKey key) = none := by
      cases hc : store (limiter.fullKey key) with
      | none => simp [Store.visible, hc]
      | some c =>
        obtain ⟨d, hd⟩ := h.expiring store rfl key c hc
        have hlt := hexpired c d hc hd
        have hle : ¬ now ≤ d := by omega
        simp [Store.visible, hc, hd, hle]
    simp only [answer, take, Bool.false_eq_true, if_false,
      periodLimitScript_absent hquota hperiod hvisible]
    refine ⟨.started ?_ ?_ rfl, hother _⟩
    · intro c hc
      simp only [counter, Option.mem_def, Option.bind_eq_some_iff, Option.map_eq_some_iff] at hc
      obtain ⟨c', hc', d, hd, rfl⟩ := hc
      exact hexpired c' d hc' hd
    · simp [counter, lifetime]

/-- A call changes the counter of its key, and at most drops others. -/
theorem answer_effect (h : s.Kept period quota) (hperiod : 1 ≤ period) (hquota : 1 ≤ quota) :
    Effect quota s (s.answer key now) key now ∧
      ∀ k c, k ≠ key → (s.answer key now).counter k = some c → s.counter k = some c := by
  cases hrdb : s.rdb with
  | none =>
    obtain ⟨heffect, hother⟩ : Effect quota s (s.answer key now) key now ∧
        ∀ k, k ≠ key → (s.answer key now).counter k = s.counter k := answer_local h hrdb
    exact ⟨heffect, fun k c hk hc => hother k hk ▸ hc⟩
  | some store => exact answer_server h hperiod hquota hrdb

/-- A call keeps the settings, and what the server has. -/
theorem answer_settings (s : Limited) (key : String) (now : Int) :
    (s.answer key now).limiter.period = s.limiter.period ∧
      (s.answer key now).limiter.quota = s.limiter.quota ∧
      (s.answer key now).limiter.keyPrefix = s.limiter.keyPrefix := by
  have hlocal : (s.limiter.localTake key now).2.period = s.limiter.period ∧
      (s.limiter.localTake key now).2.quota = s.limiter.quota ∧
      (s.limiter.localTake key now).2.keyPrefix = s.limiter.keyPrefix := by
    unfold localTake
    split
    · exact ⟨rfl, rfl, rfl⟩
    · split <;> exact ⟨rfl, rfl, rfl⟩
  cases hrdb : s.rdb with
  | none => simpa only [answer, take, hrdb] using hlocal
  | some store => simp [answer, take, hrdb]

/-- Counters last as long after a call as before it. -/
theorem answer_lifetime (s : Limited) (key : String) (now : Int) :
    (s.answer key now).lifetime = s.lifetime := by
  have hperiod := (s.answer_settings key now).1
  cases hrdb : s.rdb with
  | none =>
    have hnone : (s.answer key now).rdb = none := by simp [answer, take, hrdb]
    simp only [lifetime, hrdb, hnone, localWindow, hperiod]
  | some store =>
    obtain ⟨store', hsome⟩ : ∃ store', (s.answer key now).rdb = some store' := by
      simp [answer, take, hrdb]
    simp only [lifetime, hrdb, hsome, hperiod]

/-- A pass of the cleanup loop only drops counters. -/
theorem cleanup_counter (read now : Int) {k : String} {c : LocalCounter}
    (hc : counter { s with limiter := s.limiter.cleanup read, clock := now } k = some c) :
    s.counter k = some c := by
  cases hrdb : s.rdb with
  | none =>
    simp only [counter, hrdb, cleanup] at hc ⊢
    exact (Option.filter_eq_some_iff.mp hc).1
  | some store =>
    simp only [counter, hrdb] at hc ⊢
    exact hc

/-- Every event keeps the counters. -/
theorem Kept.step (h : s.Kept period quota) (hperiod : 1 ≤ period) (hquota : 1 ≤ quota)
    (hstep : s.step l = some s') : s'.Kept period quota := by
  cases l with
  | take key now =>
    obtain ⟨-, ⟨⟩⟩ := Option.ite_none_right_eq_some.mp hstep
    obtain ⟨hsame, hquota', hprefix⟩ := s.answer_settings key now
    obtain ⟨heffect, hother⟩ : Effect quota s (s.answer key now) key now ∧
        ∀ k c, k ≠ key → (s.answer key now).counter k = some c → s.counter k = some c :=
      answer_effect h hperiod hquota
    refine ⟨⟨hsame.trans h.settings.1, hquota'.trans h.settings.2⟩, fun k c hc => ?_, ?_⟩
    · by_cases hk : k = key
      · subst hk
        cases heffect with
        | started _ hcounter _ =>
          rw [hcounter] at hc
          cases hc
          exact le_rfl
        | counted c' hc' _ hcounter _ =>
          rw [hcounter] at hc
          cases hc
          have hpos := h.positive k c' hc'
          dsimp only
          omega
      · exact h.positive k c (hother k c hk hc)
    · intro store' hstore' k c hc
      have hname : (s.answer key now).limiter.fullKey k = s.limiter.fullKey k := by
        rw [fullKey, fullKey, hprefix]
      rw [hname] at hc
      cases hrdb : s.rdb with
      | none => simp [answer, take, hrdb] at hstore'
      | some store =>
        have hscript : (periodLimitScript s.limiter.quota s.limiter.period now
            (s.limiter.fullKey key) (store.visible now)).2 = store' := by
          simpa [answer, take, hrdb] using hstore'
        rw [← hscript] at hc
        refine periodLimitScript_deadline (h.settings.1 ▸ hperiod) (fun c' hc' => ?_) hc
        exact h.expiring store hrdb k c' (Option.filter_eq_some_iff.mp hc').1
  | cleanup read now =>
    obtain ⟨-, ⟨⟩⟩ := Option.ite_none_right_eq_some.mp hstep
    exact ⟨h.settings, fun k c hc => h.positive k c (cleanup_counter read now hc), h.expiring⟩

/-- The calls of a counter, and those before it, as a guarded run leaves them. -/
structure Sound (period quota : Int) (s : Limited) : Prop extends Kept period quota s where
  /-- A counter was started in the past. -/
  past : ∀ key c, s.counter key = some c → c.expireAt - s.lifetime ≤ s.clock
  /-- An allowed call on a key belongs to its counter, or is a period older than the counter. -/
  apart : ∀ key c, s.counter key = some c → ∀ e ∈ s.log, e.key = key → e.status = .allowed →
    e.time + period * second ≤ c.expireAt - s.lifetime ∨
      c.expireAt - s.lifetime ≤ e.time
  /-- A counter has counted its allowed calls. -/
  counted : ∀ key c hi, s.counter key = some c →
    (s.log.countP fun e => e.AllowedIn key (c.expireAt - s.lifetime) hi : Int) ≤ c.count
  /-- The quota holds over every interval. -/
  within : s.WithinQuota period quota

/-- One more call counts once at most. -/
theorem countP_log_concat (log : List Taken) (e : Taken) (key : String) (lo hi : Int) :
    ((log ++ [e]).countP fun e => e.AllowedIn key lo hi : Int) =
      (log.countP fun e => e.AllowedIn key lo hi : Int) +
        if e.AllowedIn key lo hi then 1 else 0 := by
  rw [List.countP_append, List.countP_singleton]
  simp only [decide_eq_true_eq]
  split <;> simp

/-- No allowed call on the key is in an interval that begins after all of them. -/
theorem countP_log_eq_zero {log : List Taken} {key : String} {lo hi : Int}
    (h : ∀ e ∈ log, e.key = key → e.status = .allowed → e.time < lo) :
    (log.countP fun e => e.AllowedIn key lo hi) = 0 := by
  rw [List.countP_eq_zero]
  rintro e he hin
  obtain ⟨hkey, hstatus, hlo, -⟩ := of_decide_eq_true hin
  have hlt := h e he hkey hstatus
  omega

/-- A call that starts a counter quietly keeps the quota. -/
theorem Sound.within_started (h : s.Sound period quota) (hquota : 1 ≤ quota)
    (hquiet : ∀ e ∈ s.log, e.key = key → e.status = .allowed → e.time + period * second ≤ now)
    (hlog : s'.log = s.log ++ [⟨key, now, .allowed⟩]) : s'.WithinQuota period quota := by
  intro k lo
  rw [hlog, countP_log_concat]
  by_cases hin : Taken.AllowedIn ⟨key, now, .allowed⟩ k lo (lo + period * second)
  · rw [if_pos hin]
    obtain ⟨rfl, -, -, hhi⟩ := hin
    dsimp only at hquiet hhi
    rw [countP_log_eq_zero fun e he hkey hstatus => by
      have hold := hquiet e he hkey hstatus
      omega]
    simpa using hquota
  · rw [if_neg hin, Int.add_zero]
    exact h.within k lo

/-- A call that a counter allows keeps the quota: the calls of earlier counters are too old to
share an interval with it. -/
theorem Sound.within_counted (h : s.Sound period quota) {c : LocalCounter}
    (hc : s.counter key = some c) (hclock : s.clock ≤ now)
    (hlog : s'.log = s.log ++
      [⟨key, now, if c.count + 1 > quota then .overQuota else .allowed⟩]) :
    s'.WithinQuota period quota := by
  intro k lo
  rw [hlog, countP_log_concat]
  by_cases hin : Taken.AllowedIn
      ⟨key, now, if c.count + 1 > quota then .overQuota else .allowed⟩ k lo (lo + period * second)
  · rw [if_pos hin]
    obtain ⟨rfl, hstatus, -, hhi⟩ := hin
    dsimp only at hc hstatus hhi ⊢
    have hallowed : ¬ c.count + 1 > quota := by
      intro hover
      rw [if_pos hover] at hstatus
      cases hstatus
    have hpast := h.past key c hc
    have hmono : (s.log.countP fun e => e.AllowedIn key lo (lo + period * second)) ≤
        s.log.countP fun e =>
          e.AllowedIn key (c.expireAt - s.lifetime) (lo + period * second) := by
      refine List.countP_mono_left fun e he hein => decide_eq_true ?_
      obtain ⟨hkey, hallowed, hlo, hlt⟩ := of_decide_eq_true hein
      rcases h.apart key c hc e he hkey hallowed with hold | hown
      · omega
      · exact ⟨hkey, hallowed, hown, hlt⟩
    have hcounted := h.counted key c (lo + period * second) hc
    omega
  · rw [if_neg hin, Int.add_zero]
    exact h.within k lo

/-- A call appends to the record at its own clock. -/
theorem Effect.mem_log (heffect : Effect quota s s' key now) {e : Taken}
    (he : e ∈ s'.log) : e ∈ s.log ∨ e.key = key ∧ e.time = now := by
  cases heffect with
  | started _ _ hlog | counted _ _ _ _ hlog =>
    rw [hlog, List.mem_append, List.mem_singleton] at he
    rcases he with hold | rfl
    · exact Or.inl hold
    · exact Or.inr ⟨rfl, rfl⟩

/-- On other keys a call counts nothing. -/
theorem Effect.countP_other (heffect : Effect quota s s' key now) {k : String}
    (hk : k ≠ key) (lo hi : Int) :
    (s'.log.countP fun e => e.AllowedIn k lo hi : Int) =
      (s.log.countP fun e => e.AllowedIn k lo hi : Int) := by
  have hout : ∀ status, ¬ Taken.AllowedIn ⟨key, now, status⟩ k lo hi :=
    fun status hin => hk hin.1.symm
  cases heffect with
  | started _ _ hlog | counted _ _ _ _ hlog =>
    rw [hlog, countP_log_concat, if_neg (hout _), Int.add_zero]

/-- On its own key a call counts once at most. -/
theorem Effect.countP_le (heffect : Effect quota s s' key now) (k : String) (lo hi : Int) :
    (s'.log.countP fun e => e.AllowedIn k lo hi : Int) ≤
      (s.log.countP fun e => e.AllowedIn k lo hi : Int) + 1 := by
  cases heffect with
  | started _ _ hlog | counted _ _ _ _ hlog =>
    rw [hlog, countP_log_concat]
    have hone : ∀ (p : Prop) [Decidable p], (if p then (1 : Int) else 0) ≤ 1 := by
      intro p _
      split <;> omega
    exact Int.add_le_add_left (hone _) _

/-- A quiet call keeps the counters apart. -/
theorem Sound.answer (h : s.Sound period quota) (hperiod : 1 ≤ period) (hquota : 1 ≤ quota)
    (hclock : s.clock ≤ now) (hquiet : s.StartsQuietly period (.take key now)) :
    (s.answer key now).Sound period quota := by
  have hsecond : 0 < period * second := Int.mul_pos (by omega) (by decide)
  have hlifetime := s.answer_lifetime key now
  obtain ⟨heffect, hother⟩ : Effect quota s (s.answer key now) key now ∧
      ∀ k c, k ≠ key → (s.answer key now).counter k = some c → s.counter k = some c :=
    answer_effect h.toKept hperiod hquota
  have hkept : (s.answer key now).Kept period quota :=
    h.toKept.step hperiod hquota (l := .take key now) (if_pos hclock)
  refine ⟨hkept, fun k c hc => ?_, fun k c hc e he hkey hstatus => ?_, fun k c hi hc => ?_, ?_⟩
  · rw [hlifetime]
    by_cases hk : k = key
    · subst hk
      cases heffect with
      | started _ hcounter _ =>
        rw [hcounter] at hc
        cases hc
        exact (Int.add_sub_cancel ..).le
      | counted c' hc' _ hcounter _ =>
        rw [hcounter] at hc
        cases hc
        exact (h.past k c' hc').trans hclock
    · exact (h.past k c (hother k c hk hc)).trans hclock
  · rw [hlifetime]
    by_cases hk : k = key
    · subst hk
      cases heffect with
      | started hold hcounter hlog =>
        rw [hcounter] at hc
        cases hc
        rw [hlog, List.mem_append, List.mem_singleton] at he
        rcases he with he | rfl
        · have hquiet := hquiet hold e he hkey hstatus
          left
          dsimp only
          omega
        · right
          dsimp only
          omega
      | counted c' hc' _ hcounter hlog =>
        rw [hcounter] at hc
        cases hc
        rw [hlog, List.mem_append, List.mem_singleton] at he
        rcases he with he | rfl
        · exact h.apart k c' hc' e he hkey hstatus
        · exact Or.inr ((h.past k c' hc').trans hclock)
    · rcases heffect.mem_log he with hold | ⟨hnew, -⟩
      · exact h.apart k c (hother k c hk hc) e hold hkey hstatus
      · exact absurd (hkey.symm.trans hnew) hk
  · rw [hlifetime]
    by_cases hk : k = key
    · subst hk
      have hle := heffect.countP_le k (c.expireAt - s.lifetime) hi
      cases heffect with
      | started hold hcounter _ =>
        rw [hcounter] at hc
        cases hc
        have hnone : (s.log.countP fun e =>
            e.AllowedIn k (now + s.lifetime - s.lifetime) hi) = 0 := by
          refine countP_log_eq_zero fun e he hkey hstatus => ?_
          have hquiet := hquiet hold e he hkey hstatus
          omega
        dsimp only at hle ⊢
        rw [hnone] at hle
        exact hle
      | counted c' hc' _ hcounter _ =>
        rw [hcounter] at hc
        cases hc
        have hcounted := h.counted k c' hi hc'
        dsimp only at hle ⊢
        omega
    · rw [heffect.countP_other hk]
      exact h.counted k c hi (hother k c hk hc)
  · cases heffect with
    | started hold _ hlog => exact h.within_started hquota (hquiet hold) hlog
    | counted c hc _ _ hlog => exact h.within_counted hc hclock hlog

/-- Every quiet event keeps the counters apart. -/
theorem Sound.step (h : s.Sound period quota) (hperiod : 1 ≤ period) (hquota : 1 ≤ quota)
    (hquiet : s.StartsQuietly period l) (hstep : s.step l = some s') : s'.Sound period quota := by
  have hkept := h.toKept.step hperiod hquota hstep
  cases l with
  | take key now =>
    obtain ⟨hclock, ⟨⟩⟩ := Option.ite_none_right_eq_some.mp hstep
    exact h.answer hperiod hquota hclock hquiet
  | cleanup read now =>
    obtain ⟨⟨hclock, -⟩, ⟨⟩⟩ := Option.ite_none_right_eq_some.mp hstep
    exact ⟨hkept, fun k c hc => (h.past k c (cleanup_counter read now hc)).trans hclock,
      fun k c hc => h.apart k c (cleanup_counter read now hc),
      fun k c hi hc => h.counted k c hi (cleanup_counter read now hc), h.within⟩

/-- A new limiter has no counters. -/
theorem Fresh.sound (h : s.Fresh period quota) (hquota : 1 ≤ quota) : s.Sound period quota := by
  obtain ⟨keyPrefix, hlimiter⟩ := h.limiter
  have hcounter : ∀ key, s.counter key = none := by
    intro key
    cases hrdb : s.rdb with
    | none => simp only [counter, hrdb, hlimiter, newPeriodLimiter]
    | some store => simp [counter, hrdb, h.absent store hrdb key]
  refine ⟨⟨by rw [hlimiter]; exact ⟨rfl, rfl⟩, ?_, ?_⟩, ?_, ?_, ?_, ?_⟩
  · simp [hcounter]
  · intro store hstore key c hc
    rw [h.absent store hstore key] at hc
    cases hc
  · simp [hcounter]
  · simp [hcounter]
  · simp [hcounter]
  · intro key lo
    rw [h.silent]
    simp only [List.countP_nil]
    omega

/-- In every run of a limiter, with a server or without, in which each counter starts a period
after the last allowed call on its key, the quota holds over every interval of the period. -/
theorem within_quota_of_starts_quietly (period quota : Int) (hperiod : 1 ≤ period)
    (hquota : 1 ≤ quota) (s s' : Limited) (labels : List LimitLabel)
    (hinit : (limiters period quota).init s)
    (hguard : (limiters period quota).Guarded (fun s l => s.StartsQuietly period l) s labels)
    (hrun : (limiters period quota).run s labels = some s') : s'.WithinQuota period quota := by
  have hsound : s'.Sound period quota := (limiters period quota).run_guarded
    (fun _ _ _ h hg hstep => h.step hperiod hquota hg hstep) (Fresh.sound hinit hquota) hguard hrun
  exact hsound.within

/-- A new limiter of two calls a second, at the start of the clock. -/
def twoASecond (rdb : Option Store) : Limited := ⟨newPeriodLimiter 1 2 "limit", rdb, 0, []⟩

private theorem twoASecond_fresh (rdb : Option Store) (h : ∀ store ∈ rdb, ∀ key, store key = none) :
    (limiters 1 2).init (twoASecond rdb) :=
  ⟨⟨"limit", rfl⟩, fun store hstore _ => h store hstore _, rfl⟩

/-- Three calls at once, the last of them refused, and one after a quiet second. -/
def quietSecond : List LimitLabel :=
  [.take "user" 0, .take "user" 0, .take "user" 0, .cleanup 5 (2 * second),
    .take "user" (2 * second)]

/-- The quota is kept. -/
theorem within_quota_of_quiet_second :
    ∃ s', (limiters 1 2).run (twoASecond none) quietSecond = some s' ∧ s'.WithinQuota 1 2 :=
  ⟨_, rfl, within_quota_of_starts_quietly 1 2 (by decide) (by decide) (twoASecond none) _
    quietSecond (twoASecond_fresh none nofun) (by decide) rfl⟩

/-- Two calls in one counter, the second at its end, and two in the next. -/
def countersInARow : List LimitLabel :=
  [.take "user" 0, .take "user" (second - 1), .take "user" (second + 1),
    .take "user" (second + 2)]

/-- In the limiter's own table and on the server all four calls are allowed, three of them within
a second. -/
theorem counters_in_a_row_exceed_quota :
    (∃ s', (limiters 1 2).init (twoASecond none) ∧
      (limiters 1 2).run (twoASecond none) countersInARow = some s' ∧
      s'.log.map Taken.status = [.allowed, .allowed, .allowed, .allowed] ∧
      ¬ s'.WithinQuota 1 2) ∧
    ∃ s', (limiters 1 2).init (twoASecond (some fun _ => none)) ∧
      (limiters 1 2).run (twoASecond (some fun _ => none)) countersInARow = some s' ∧
      s'.log.map Taken.status = [.allowed, .allowed, .allowed, .allowed] ∧
      ¬ s'.WithinQuota 1 2 := by
  constructor
  · refine ⟨_, twoASecond_fresh none nofun, rfl, by decide, fun h => ?_⟩
    exact absurd (h "user" (second - 1)) (by decide)
  · refine ⟨_, twoASecond_fresh _ (by simp), rfl, by decide, fun h => ?_⟩
    exact absurd (h "user" (second - 1)) (by decide)

end Limited

end Stardust.Limit
