import Stardust.Core.Answers
import Stardust.Limit.Quota

/-!
# The limiter's own counters

A counter that has ended is the same to a later call as no counter, so that what matters of the
table is which counters are live from the present on. A pass of the cleanup loop drops only what
is not, even with a clock that it has read before it waited for the lock. The server counts as
the table does and drops its keys at the same moment, unless the period wraps as a duration. The
two answer differently to the first call of a counter, which the table allows without looking at
the quota, and after a counter of the table has ended early.
-/

namespace Stardust.Limit

open Stardust.Core Function PeriodLimiter

namespace PeriodLimiter

/-- The counter that a call on a key goes on with. -/
def live (pl : PeriodLimiter) (now : Int) (key : String) : Option LocalCounter :=
  (pl.localCount key).filter fun c => now ≤ c.expireAt

variable {pl pl' : PeriodLimiter} {key k : String} {now read clock : Int} {c : LocalCounter}

private theorem live_eq_some_iff :
    pl.live now key = some c ↔ pl.localCount key = some c ∧ now ≤ c.expireAt := by
  simp [live, Option.filter_eq_some_iff]

/-- A call without a live counter starts one, and is allowed. -/
theorem localTake_of_live_none (h : pl.live now key = none) :
    pl.localTake key now = (.allowed, pl.setCounter key ⟨1, now + pl.localWindow⟩) := by
  cases hc : pl.localCount key with
  | none => simp only [localTake, hc]
  | some c =>
    have hended : now > c.expireAt := by simpa [live, hc] using h
    simp only [localTake, hc, if_pos hended]

/-- A call with a live counter is counted, and allowed up to the quota. -/
theorem localTake_of_live_some (h : pl.live now key = some c) :
    pl.localTake key now = (if c.count + 1 > pl.quota then .overQuota else .allowed,
      pl.setCounter key { c with count := c.count + 1 }) := by
  obtain ⟨hc, hlive⟩ := live_eq_some_iff.mp h
  have hgoing : ¬ now > c.expireAt := by omega
  simp only [localTake, hc, if_neg hgoing]

/-- A call keeps the settings of the limiter. -/
theorem localTake_settings (pl : PeriodLimiter) (key : String) (now : Int) :
    (pl.localTake key now).2.period = pl.period ∧ (pl.localTake key now).2.quota = pl.quota := by
  cases h : pl.live now key with
  | none =>
    rw [localTake_of_live_none h]
    exact ⟨rfl, rfl⟩
  | some c =>
    rw [localTake_of_live_some h]
    exact ⟨rfl, rfl⟩

private theorem live_setCounter_self :
    (pl.setCounter key c).live now key = (some c).filter fun c => now ≤ c.expireAt := by
  rw [live, setCounter_localCount, update_self]

private theorem live_setCounter_of_ne (h : k ≠ key) :
    (pl.setCounter key c).live now k = pl.live now k := by
  rw [live, live, setCounter_localCount, update_of_ne h]

/-- A pass drops no counter that is live from its clock on. -/
theorem live_cleanup (h : read ≤ now) : (pl.cleanup read).live now key = pl.live now key := by
  rw [live, live, cleanup_localCount]
  cases pl.localCount key with
  | none => rfl
  | some c =>
    by_cases hended : read > c.expireAt
    · have hlate : ¬ now ≤ c.expireAt := by omega
      simp [Option.filter, hended, hlate]
    · simp [Option.filter, hended]

/-- Two limiters with the same settings whose tables cannot be told apart from a clock on. -/
structure SameLive (clock : Int) (pl pl' : PeriodLimiter) : Prop where
  period : pl.period = pl'.period
  quota : pl.quota = pl'.quota
  /-- The counters that are live now or later are the same. -/
  live : ∀ key now, clock ≤ now → pl.live now key = pl'.live now key

/-- Storing the same counter keeps the tables alike. -/
theorem SameLive.setCounter (h : SameLive clock pl pl') (hnow : clock ≤ now) (key : String)
    (c : LocalCounter) : SameLive now (pl.setCounter key c) (pl'.setCounter key c) := by
  refine ⟨h.period, h.quota, fun k later hlater => ?_⟩
  by_cases hk : k = key
  · subst hk
    rw [live_setCounter_self, live_setCounter_self]
  · rw [live_setCounter_of_ne hk, live_setCounter_of_ne hk]
    exact h.live k later (hnow.trans hlater)

/-- Tables that cannot be told apart give the same answers. -/
theorem SameLive.localTake (h : SameLive clock pl pl') (hnow : clock ≤ now) (key : String) :
    (pl.localTake key now).1 = (pl'.localTake key now).1 ∧
      SameLive now (pl.localTake key now).2 (pl'.localTake key now).2 := by
  have hsame := h.live key now hnow
  cases hlive : pl.live now key with
  | none =>
    rw [localTake_of_live_none hlive, localTake_of_live_none (hsame ▸ hlive), localWindow, h.period,
      ← localWindow]
    exact ⟨rfl, h.setCounter hnow key _⟩
  | some c =>
    rw [localTake_of_live_some hlive, localTake_of_live_some (hsame ▸ hlive), h.quota]
    exact ⟨rfl, h.setCounter hnow key _⟩

/-- A pass of the cleanup loop is not noticed. -/
theorem SameLive.cleanup (h : SameLive clock pl pl') (hnow : clock ≤ now) (hread : read ≤ now) :
    SameLive now (pl.cleanup read) pl' := by
  refine ⟨h.period, h.quota, fun k later hlater => ?_⟩
  rw [live_cleanup (hread.trans hlater)]
  exact h.live k later (hnow.trans hlater)

end PeriodLimiter

/-- The event is a call. -/
def LimitLabel.isTake : LimitLabel → Bool
  | .take _ _ => true
  | .cleanup _ _ => false

namespace Limited

/-- A limiter whose table is cleaned, and one with the same calls whose table is not. -/
structure Unnoticed (s s' : Limited) : Prop where
  /-- The one has no server. -/
  serverless : s.rdb = none
  /-- The other has none either. -/
  serverless' : s'.rdb = none
  /-- The calls were answered alike. -/
  log : s.log = s'.log
  /-- The one that is not cleaned has seen no later event. -/
  clock : s'.clock ≤ s.clock
  /-- The tables cannot be told apart any more. -/
  tables : s.limiter.SameLive s.clock s'.limiter

variable {s s' t : Limited} {period quota : Int}

/-- A call without a server. -/
theorem answer_eq_localTake (h : s.rdb = none) (key : String) (now : Int) :
    s.answer key now = ⟨(s.limiter.localTake key now).2, none, now,
      s.log ++ [⟨key, now, (s.limiter.localTake key now).1⟩]⟩ := by
  simp only [answer, take, h]

/-- A call is answered alike in the two tables. -/
theorem Unnoticed.take {key : String} {now : Int} (h : Unnoticed s s')
    (hstep : s.step (.take key now) = some t) :
    ∃ t', s'.step (.take key now) = some t' ∧ Unnoticed t t' := by
  obtain ⟨hnow, ⟨⟩⟩ := Option.ite_none_right_eq_some.mp hstep
  obtain ⟨hstatus, htables⟩ := h.tables.localTake hnow key
  refine ⟨s'.answer key now, if_pos (h.clock.trans hnow), ?_⟩
  rw [answer_eq_localTake h.serverless, answer_eq_localTake h.serverless', ← hstatus, ← h.log]
  exact ⟨rfl, rfl, rfl, le_rfl, htables⟩

/-- A pass of the cleanup loop leaves the cleaned table as good as the other. -/
theorem Unnoticed.cleanup {read now : Int} (h : Unnoticed s s')
    (hstep : s.step (.cleanup read now) = some t) : Unnoticed t s' := by
  obtain ⟨⟨hnow, hread⟩, ⟨⟩⟩ := Option.ite_none_right_eq_some.mp hstep
  exact ⟨h.serverless, h.serverless', h.log, h.clock.trans hnow, h.tables.cleanup hnow hread⟩

/-- The calls of a run are answered as without its passes. -/
theorem Unnoticed.run {ls : List LimitLabel} (h : Unnoticed s s')
    (hrun : (limiters period quota).run s ls = some t) :
    ∃ t', (limiters period quota).run s' (ls.filter LimitLabel.isTake) = some t' ∧
      Unnoticed t t' := by
  induction ls generalizing s s' with
  | nil =>
    cases hrun
    exact ⟨s', rfl, h⟩
  | cons l ls ih =>
    obtain ⟨u, hstep, hrest⟩ := (limiters period quota).run_cons_iff.mp hrun
    cases l with
    | take key now =>
      obtain ⟨u', hstep', hu⟩ := h.take hstep
      obtain ⟨t', hrun', ht⟩ := ih hu hrest
      exact ⟨t', (limiters period quota).run_cons_iff.mpr ⟨u', hstep', hrun'⟩, ht⟩
    | cleanup read now => exact ih (h.cleanup hstep) hrest

/-- The calls on a limiter without a server are answered the same with and without the passes of
its cleanup loop, whatever clock each pass has read before it had the lock and whatever counters
the limiter has to begin with. -/
theorem answers_eq_without_cleanup (period quota : Int) (s₀ s : Limited) (ls : List LimitLabel)
    (hlocal : s₀.rdb = none)
    (hrun : (limiters period quota).run s₀ ls = some s) :
    ∃ s', (limiters period quota).run s₀ (ls.filter LimitLabel.isTake) = some s' ∧
      s'.log = s.log := by
  have hsame : Unnoticed s₀ s₀ := ⟨hlocal, hlocal, rfl, le_rfl, rfl, rfl, fun _ _ _ => rfl⟩
  obtain ⟨s', hrun', h⟩ := hsame.run hrun
  exact ⟨s', hrun', h.log.symm⟩

/-- Two calls, a pass that has waited for the lock since before the second, and one after the first
counter has ended. -/
theorem answers_eq_without_two_passes :
    ∃ s', (limiters 1 1).run ⟨newPeriodLimiter 1 1 "api", none, 0, []⟩
      ([.take "a" 0, .take "a" 1, .cleanup 0 2, .take "b" 2, .cleanup (second + 1) (second + 2),
        .take "a" (second + 2)].filter LimitLabel.isTake) = some s' ∧
      s'.log = [⟨"a", 0, .allowed⟩, ⟨"a", 1, .overQuota⟩, ⟨"b", 2, .allowed⟩,
        ⟨"a", second + 2, .allowed⟩] :=
  answers_eq_without_cleanup 1 1 _ ⟨_, none, _, _⟩ _ rfl rfl

end Limited

/-- One call of `Take`. -/
structure TakeCall where
  key : String
  now : Int
  deriving DecidableEq, Repr

/-- A limiter with the keys of its server. -/
structure Scripted where
  limiter : PeriodLimiter
  store : Store

/-- A call that is counted on the server. -/
def Scripted.take (s : Scripted) (c : TakeCall) : LimitStatus × Scripted :=
  let (status, limiter, rdb) := s.limiter.take (some s.store) false c.key c.now
  (status, ⟨limiter, rdb.getD s.store⟩)

private theorem Scripted.take_eq (s : Scripted) (c : TakeCall) {result : Int} {store : Store}
    (h : periodLimitScript s.limiter.quota s.limiter.period c.now (s.limiter.fullKey c.key)
      (s.store.visible c.now) = (result, store)) :
    s.take c = (if result = 1 then .allowed else .overQuota, ⟨s.limiter, store⟩) := by
  simp only [take, PeriodLimiter.take, Bool.false_eq_true, if_false, h, Option.getD_some]

/-- A call that is counted in the limiter's own table. -/
def PeriodLimiter.takeLocally (pl : PeriodLimiter) (c : TakeCall) : LimitStatus × PeriodLimiter :=
  pl.localTake c.key c.now

/-- A counter of the table as the server keeps it. -/
def LocalCounter.stored (c : LocalCounter) : Counter := ⟨c.count, some c.expireAt⟩

/-- The table and the server have the same live counters from a clock on. -/
structure Mirrors (clock : Int) (pl : PeriodLimiter) (s : Scripted) : Prop where
  period : s.limiter.period = pl.period
  quota : s.limiter.quota = pl.quota
  /-- A counter has counted a call. -/
  positive : ∀ key c, pl.localCount key = some c → 1 ≤ c.count
  /-- The live counters are the same. -/
  live : ∀ key now, clock ≤ now →
    s.store.visible now (s.limiter.fullKey key) = (pl.live now key).map LocalCounter.stored

namespace Mirrors

variable {clock : Int} {pl : PeriodLimiter} {s : Scripted} {c : TakeCall}

/-- The server sees a counter of the table as long as the table does. -/
theorem filter_stored (c : LocalCounter) (now : Int) :
    (some c.stored).filter (fun c => c.deadline.all (now ≤ ·)) =
      ((some c).filter fun c => now ≤ c.expireAt).map LocalCounter.stored := by
  by_cases h : now ≤ c.expireAt <;> simp [Option.filter, LocalCounter.stored, h]

/-- What the server sees later is part of what it sees now. -/
theorem visible_visible (store : Store) {now later : Int} (h : now ≤ later) (key : String) :
    (store.visible now).visible later key = store.visible later key := by
  unfold Store.visible
  cases store key with
  | none => rfl
  | some c =>
    cases hd : c.deadline with
    | none => simp [Option.filter, hd]
    | some d =>
      by_cases hlater : later ≤ d
      · have hnow : now ≤ d := by omega
        simp [Option.filter, hd, hlater, hnow]
      · by_cases hnow : now ≤ d <;> simp [Option.filter, hd, hlater, hnow]

/-- Storing the same counter keeps the table and the server alike. -/
theorem store (h : Mirrors clock pl s) (hnow : clock ≤ c.now) (v : LocalCounter)
    (hv : 1 ≤ v.count) :
    Mirrors c.now (pl.setCounter c.key v) ⟨s.limiter, update (s.store.visible c.now)
      (s.limiter.fullKey c.key) (some v.stored)⟩ := by
  refine ⟨h.period, h.quota, fun k v' hv' => ?_, fun k later hlater => ?_⟩
  · by_cases hk : k = c.key
    · subst hk
      rw [setCounter_localCount, update_self, Option.some.injEq] at hv'
      rwa [← hv']
    · rw [setCounter_localCount, update_of_ne hk] at hv'
      exact h.positive k v' hv'
  · dsimp only
    by_cases hk : k = c.key
    · subst hk
      rw [Store.visible, update_self, live_setCounter_self, filter_stored]
    · have hne : s.limiter.fullKey k ≠ s.limiter.fullKey c.key :=
        mt fullKey_inj.mp hk
      rw [live_setCounter_of_ne hk, Store.visible, update_of_ne hne,
        ← h.live k later (hnow.trans hlater)]
      exact visible_visible s.store hlater _

/-- With a positive quota and a window that does not wrap a call is answered alike and keeps the
table and the server alike. -/
theorem take (h : Mirrors clock pl s) (hperiod : 1 ≤ pl.period) (hquota : 1 ≤ pl.quota)
    (hwindow : pl.localWindow = pl.period * second) (hnow : clock ≤ c.now) :
    (pl.takeLocally c).1 = (s.take c).1 ∧ Mirrors c.now (pl.takeLocally c).2 (s.take c).2 := by
  have hsame := h.live c.key c.now hnow
  rw [← h.quota] at hquota
  rw [← h.period] at hperiod
  cases hlive : pl.live c.now c.key with
  | none =>
    rw [hlive, Option.map_none] at hsame
    rw [s.take_eq c (periodLimitScript_absent hquota hperiod hsame), takeLocally,
      localTake_of_live_none hlive, hwindow, h.period, if_pos rfl]
    exact ⟨rfl, h.store hnow ⟨1, _⟩ le_rfl⟩
  | some v =>
    have hv : 1 ≤ v.count := h.positive c.key v (live_eq_some_iff.mp hlive).1
    rw [hlive, Option.map_some] at hsame
    rw [s.take_eq c (periodLimitScript_present hv hsame), takeLocally,
      localTake_of_live_some hlive, h.quota]
    refine ⟨?_, h.store hnow ⟨v.count + 1, v.expireAt⟩ (by simp only; omega)⟩
    by_cases hover : v.count + 1 > pl.quota <;> simp [LocalCounter.stored, hover]

end Mirrors

/-- A new limiter without counters, and a server without keys. -/
theorem mirrors_new (period quota : Int) (keyPrefix : String) (clock : Int) :
    Mirrors clock (newPeriodLimiter period quota keyPrefix)
      ⟨newPeriodLimiter period quota keyPrefix, fun _ => none⟩ :=
  ⟨rfl, rfl, nofun, fun _ _ _ => rfl⟩

/-- A period that is a duration does not wrap. -/
theorem PeriodLimiter.localWindow_eq {pl : PeriodLimiter} (hperiod : 1 ≤ pl.period)
    (hfits : pl.period * second < 2 ^ 63) : pl.localWindow = pl.period * second := by
  have hpos : 0 < pl.period * second := Int.mul_pos (by omega) (by decide)
  exact Int.bmod_eq_of_le (by omega) (by omega)

/-- A period that is none wraps to a shorter window. -/
theorem PeriodLimiter.localWindow_lt {pl : PeriodLimiter} (hwraps : 2 ^ 63 ≤ pl.period * second) :
    pl.localWindow < pl.period * second := by
  have hlt : pl.localWindow < _ := Int.bmod_lt (by decide)
  omega

/-- With a positive quota and a window that does not wrap the table answers as the server. -/
theorem answers_eq_of_mirrors {period quota clock : Int} (hperiod : 1 ≤ period)
    (hquota : 1 ≤ quota) (hfits : period * second < 2 ^ 63) {pl : PeriodLimiter} {s : Scripted}
    {calls : List TakeCall} (hsettings : pl.period = period ∧ pl.quota = quota)
    (h : Mirrors clock pl s) (hclock : ∀ c ∈ calls, clock ≤ c.now)
    (hsorted : calls.Pairwise (·.now ≤ ·.now)) :
    answers takeLocally pl calls = answers Scripted.take s calls := by
  refine answers_eq_of_simulation (R := fun pl s calls => (pl.period = period ∧ pl.quota = quota) ∧
    calls.Pairwise (·.now ≤ ·.now) ∧ ∃ clock, Mirrors clock pl s ∧ ∀ c ∈ calls, clock ≤ c.now) ?_
    ⟨hsettings, hsorted, clock, h, hclock⟩
  rintro pl s c calls ⟨⟨rfl, rfl⟩, hsorted, clock, h, hclock⟩
  obtain ⟨hstatus, hnext⟩ := h.take hperiod hquota (localWindow_eq hperiod hfits)
    (hclock c List.mem_cons_self)
  obtain ⟨hahead, hrest⟩ := List.pairwise_cons.mp hsorted
  exact ⟨hstatus, pl.localTake_settings c.key c.now, hrest, c.now, hnext, hahead⟩

/-- The first call is allowed without a server, and over a quota that is not positive with one. -/
theorem takeLocally_ne_take_of_quota (period : Int) {quota : Int} (hquota : quota < 1)
    (keyPrefix : String) (c : TakeCall) :
    ((newPeriodLimiter period quota keyPrefix).takeLocally c).1 = .allowed ∧
      (Scripted.take ⟨newPeriodLimiter period quota keyPrefix, fun _ => none⟩ c).1 =
        .overQuota := by
  refine ⟨rfl, ?_⟩
  simp [Scripted.take, take, periodLimitScript, Store.visible, incr,
    newPeriodLimiter, hquota]

/-- Without a server the first answer is another one unless the quota is positive. -/
theorem answers_ne_of_quota (period : Int) {quota : Int} (hquota : quota < 1) (keyPrefix : String)
    (c : TakeCall) (calls : List TakeCall) :
    answers takeLocally (newPeriodLimiter period quota keyPrefix) (c :: calls) ≠
      answers Scripted.take ⟨newPeriodLimiter period quota keyPrefix, fun _ => none⟩
        (c :: calls) := by
  intro h
  obtain ⟨hlocal, hserver⟩ := takeLocally_ne_take_of_quota period hquota keyPrefix c
  rw [answers, answers, List.cons.injEq, hlocal, hserver] at h
  cases h.1

/-- After calls at the time zero the table's counter ends with its window, and the server's counts
on until the end of the period. -/
structure Outlasts (key : String) (v : Int) (pl : PeriodLimiter) (s : Scripted) : Prop where
  quota : s.limiter.quota = pl.quota
  /-- The table's counter ends with the window. -/
  ended : ∀ c, pl.localCount key = some c → c.expireAt = pl.localWindow
  /-- The server has counted the calls. -/
  counted : s.store (s.limiter.fullKey key) = some ⟨v, some (pl.period * second)⟩
  /-- There was a call. -/
  positive : 1 ≤ v

namespace Outlasts

variable {key : String} {v : Int} {pl : PeriodLimiter} {s : Scripted}

/-- The server goes on with its counter. -/
theorem take_eq (h : Outlasts key v pl s) {now : Int} (hnow : now ≤ pl.period * second) :
    s.take ⟨key, now⟩ = (if v + 1 > pl.quota then .overQuota else .allowed,
      ⟨s.limiter, update (s.store.visible now) (s.limiter.fullKey key)
        (some ⟨v + 1, some (pl.period * second)⟩)⟩) := by
  have hvisible : s.store.visible now (s.limiter.fullKey key) =
      some ⟨v, some (pl.period * second)⟩ := by
    simp [Store.visible, h.counted, hnow]
  rw [s.take_eq ⟨key, now⟩ (periodLimitScript_present h.positive hvisible), h.quota]
  by_cases hover : v + 1 > pl.quota <;> simp [hover]

/-- One more call at the time zero. -/
theorem step (h : Outlasts key v pl s) (hpos : 0 ≤ pl.period * second) :
    Outlasts key (v + 1) (pl.takeLocally ⟨key, 0⟩).2 (s.take ⟨key, 0⟩).2 := by
  obtain ⟨hperiod, hquota⟩ := pl.localTake_settings key 0
  have hpositive := h.positive
  rw [h.take_eq hpos]
  refine ⟨h.quota.trans hquota.symm, fun c hc => ?_, ?_, by omega⟩
  · have hwindow : (pl.takeLocally ⟨key, 0⟩).2.localWindow = pl.localWindow :=
      congrArg (fun period => Int.bmod (period * second) (2 ^ 64)) hperiod
    rw [hwindow]
    unfold takeLocally at hc
    cases hlive : pl.live 0 key with
    | none =>
      rw [localTake_of_live_none hlive, setCounter_localCount,
        update_self] at hc
      cases hc
      exact Int.zero_add _
    | some c' =>
      rw [localTake_of_live_some hlive, setCounter_localCount,
        update_self] at hc
      cases hc
      exact h.ended c' (live_eq_some_iff.mp hlive).1
  · refine (update_self ..).trans ?_
    have hsame : (pl.takeLocally ⟨key, 0⟩).2.period = pl.period := hperiod
    rw [hsame]

/-- A call between the two ends is allowed by the table, and over the quota on the server. -/
theorem answers_ne (h : Outlasts key v pl s) {now : Int} (hended : pl.localWindow < now)
    (hnow : now ≤ pl.period * second) (hpos : 0 ≤ pl.period * second) {n : Nat}
    (hn : v + n = pl.quota) :
    answers takeLocally pl (List.replicate n ⟨key, 0⟩ ++ [⟨key, now⟩]) ≠
      answers Scripted.take s (List.replicate n ⟨key, 0⟩ ++ [⟨key, now⟩]) := by
  induction n generalizing v pl s with
  | zero =>
    have hlive : pl.live now key = none := by
      rw [Option.eq_none_iff_forall_not_mem]
      intro c hc
      obtain ⟨hc, hle⟩ := live_eq_some_iff.mp hc
      rw [h.ended c hc] at hle
      omega
    have hover : v + 1 > pl.quota := by omega
    simp only [List.replicate_zero, List.nil_append, answers, takeLocally,
      localTake_of_live_none hlive, h.take_eq hnow, if_pos hover]
    decide
  | succ n ih =>
    obtain ⟨hperiod, hquota⟩ := pl.localTake_settings key 0
    have hwindow : (pl.takeLocally ⟨key, 0⟩).2.localWindow = pl.localWindow :=
      congrArg (fun period => Int.bmod (period * second) (2 ^ 64)) hperiod
    have hlength : (pl.takeLocally ⟨key, 0⟩).2.period * second = pl.period * second :=
      congrArg (· * second) hperiod
    rw [List.replicate_succ, List.cons_append, answers, answers]
    refine fun heq => ih (h.step hpos) ?_ ?_ ?_ ?_ (List.cons.inj heq).2
    · rwa [hwindow]
    · rwa [hlength]
    · rwa [hlength]
    · refine Eq.trans ?_ hquota.symm
      push_cast at hn
      omega

end Outlasts

/-- With a window that wraps the table allows a call that the server does not. -/
theorem exists_answers_ne_of_wraps {period quota : Int} (hquota : 1 ≤ quota)
    (hwraps : 2 ^ 63 ≤ period * second) (keyPrefix : String) :
    ∃ calls : List TakeCall, calls.Pairwise (·.now ≤ ·.now) ∧
      answers takeLocally (newPeriodLimiter period quota keyPrefix) calls ≠
        answers Scripted.take ⟨newPeriodLimiter period quota keyPrefix, fun _ => none⟩ calls := by
  have hshort : (newPeriodLimiter period quota keyPrefix).localWindow < period * second :=
    localWindow_lt hwraps
  have hperiod : 1 ≤ period := by
    by_contra hneg
    have hle : period * second ≤ 0 := Int.mul_nonpos_of_nonpos_of_nonneg (by omega) (by decide)
    omega
  generalize hwindow : (newPeriodLimiter period quota keyPrefix).localWindow = window at hshort
  have habsent : Store.visible (fun _ => none) 0
      ((newPeriodLimiter period quota keyPrefix).fullKey "a") = none := rfl
  have hfirst := Scripted.take_eq ⟨newPeriodLimiter period quota keyPrefix, fun _ => none⟩ ⟨"a", 0⟩
    (periodLimitScript_absent hquota hperiod habsent)
  have houtlasts : Outlasts "a" 1
      ((newPeriodLimiter period quota keyPrefix).takeLocally ⟨"a", 0⟩).2
      (Scripted.take ⟨newPeriodLimiter period quota keyPrefix, fun _ => none⟩ ⟨"a", 0⟩).2 := by
    rw [hfirst]
    refine ⟨rfl, fun c hc => ?_, ?_, le_rfl⟩
    · cases hc
      exact Int.zero_add _
    · simp [newPeriodLimiter, takeLocally, localTake,
        setCounter]
  refine ⟨⟨"a", 0⟩ :: (List.replicate (quota - 1).toNat ⟨"a", 0⟩ ++ [⟨"a", max 0 (window + 1)⟩]),
    ?_, ?_⟩
  · refine List.pairwise_cons.mpr ⟨fun c hc => ?_, List.pairwise_append.mpr
      ⟨List.pairwise_replicate.mpr (.inr le_rfl), List.pairwise_singleton _ _,
        fun c hc c' hc' => ?_⟩⟩
    · rcases List.mem_append.mp hc with hc | hc
      · rw [List.eq_of_mem_replicate hc]
      · rw [List.mem_singleton.mp hc]
        exact le_max_left _ _
    · rw [List.eq_of_mem_replicate hc, List.mem_singleton.mp hc']
      exact le_max_left _ _
  · rw [answers, answers]
    refine fun heq => houtlasts.answers_ne ?_ ?_ ?_ ?_ (List.cons.inj heq).2
    · change (newPeriodLimiter period quota keyPrefix).localWindow < _
      omega
    · change _ ≤ period * second
      omega
    · change 0 ≤ period * second
      omega
    · change 1 + ((quota - 1).toNat : Int) = quota
      omega

/-- Without a server the calls are answered as by the script exactly when the quota is positive,
or there are no calls, as long as the period is a duration; and all calls are answered so exactly
when both hold. -/
theorem answers_locally_eq_iff (period quota : Int) (hperiod : 1 ≤ period) (keyPrefix : String) :
    (period * second < 2 ^ 63 → ∀ calls : List TakeCall, calls.Pairwise (·.now ≤ ·.now) →
      (answers takeLocally (newPeriodLimiter period quota keyPrefix) calls =
          answers Scripted.take ⟨newPeriodLimiter period quota keyPrefix, fun _ => none⟩ calls ↔
        1 ≤ quota ∨ calls = [])) ∧
    ((∀ calls : List TakeCall, calls.Pairwise (·.now ≤ ·.now) →
      answers takeLocally (newPeriodLimiter period quota keyPrefix) calls =
        answers Scripted.take ⟨newPeriodLimiter period quota keyPrefix, fun _ => none⟩ calls) ↔
      1 ≤ quota ∧ period * second < 2 ^ 63) := by
  have heq : 1 ≤ quota → period * second < 2 ^ 63 → ∀ calls : List TakeCall,
      calls.Pairwise (·.now ≤ ·.now) →
      answers takeLocally (newPeriodLimiter period quota keyPrefix) calls =
        answers Scripted.take ⟨newPeriodLimiter period quota keyPrefix, fun _ => none⟩ calls := by
    intro hquota hfits calls hsorted
    cases calls with
    | nil => rfl
    | cons c calls =>
      refine answers_eq_of_mirrors hperiod hquota hfits ⟨rfl, rfl⟩
        (mirrors_new period quota keyPrefix c.now) ?_ hsorted
      exact List.forall_mem_cons.mpr ⟨le_rfl, (List.pairwise_cons.mp hsorted).1⟩
  refine ⟨fun hfits calls hsorted => ⟨fun h => ?_, ?_⟩, fun hall => ?_, fun h => heq h.1 h.2⟩
  · by_contra hneither
    obtain ⟨hquota, hne⟩ := not_or.mp hneither
    obtain ⟨c, calls, rfl⟩ := List.exists_cons_of_ne_nil hne
    exact answers_ne_of_quota period (by omega) keyPrefix c calls h
  · rintro (hquota | rfl)
    · exact heq hquota hfits calls hsorted
    · rfl
  · have hquota : 1 ≤ quota := by
      by_contra hquota
      exact answers_ne_of_quota period (by omega) keyPrefix ⟨"a", 0⟩ []
        (hall [⟨"a", 0⟩] (List.pairwise_singleton _ _))
    refine ⟨hquota, ?_⟩
    by_contra hfits
    have hwraps : 2 ^ 63 ≤ period * second := by omega
    obtain ⟨calls, hsorted, hne⟩ := exists_answers_ne_of_wraps hquota hwraps keyPrefix
    exact hne (hall calls hsorted)

/-- Two keys over the end of a counter: a call at the last moment of the first, and one after it. -/
theorem answers_locally_eq_over_two_counters :
    answers takeLocally (newPeriodLimiter 1 1 "api")
        [⟨"a", 0⟩, ⟨"b", 5⟩, ⟨"a", second⟩, ⟨"a", second + 1⟩] =
      answers Scripted.take ⟨newPeriodLimiter 1 1 "api", fun _ => none⟩
        [⟨"a", 0⟩, ⟨"b", 5⟩, ⟨"a", second⟩, ⟨"a", second + 1⟩] :=
  ((answers_locally_eq_iff 1 1 (by decide) "api").1 (by decide) _ (by decide)).mpr
    (.inl (by decide))

/-- A quota of zero allows the first call of a counter without a server, and none with one; and a
period of 585 years wraps to less than a third of a second. -/
theorem answers_locally_ne_at_quota_zero :
    answers takeLocally (newPeriodLimiter 1 0 "api") [⟨"a", 0⟩, ⟨"a", 1⟩] =
        [.allowed, .overQuota] ∧
      answers Scripted.take ⟨newPeriodLimiter 1 0 "api", fun _ => none⟩ [⟨"a", 0⟩, ⟨"a", 1⟩] =
        [.overQuota, .overQuota] ∧
      answers takeLocally (newPeriodLimiter 18446744074 1 "api")
        [⟨"a", 0⟩, ⟨"a", 1⟩, ⟨"a", second⟩] = [.allowed, .overQuota, .allowed] ∧
      answers Scripted.take ⟨newPeriodLimiter 18446744074 1 "api", fun _ => none⟩
        [⟨"a", 0⟩, ⟨"a", 1⟩, ⟨"a", second⟩] = [.allowed, .overQuota, .overQuota] := by
  decide +kernel

end Stardust.Limit
