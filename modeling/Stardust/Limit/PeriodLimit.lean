import Mathlib.Algebra.Ring.Int.Defs
import Mathlib.Data.String.Basic
import Mathlib.Logic.Function.Basic

/-!
# The period limiter

A counter for each key, on the server or in the limiter's own table. Clocks count
nanoseconds. The server drops a key when the clock is past its deadline, as the limiter
forgets its own counter. The server is told the period in seconds; the limiter's own window
is a `time.Duration`, nanoseconds in 64 bits, which wraps for a period of centuries.
-/

namespace Stardust.Limit

open Function

/-- The answers of a `PeriodLimiter`. -/
inductive LimitStatus where
  | allowed
  | overQuota
  | unknown
  deriving DecidableEq, Repr

/-- The nanoseconds in a second. -/
def second : Int := 10 ^ 9

/-- A counter under a key of the server. -/
structure Counter where
  /-- What `INCR` has counted. -/
  value : Int
  /-- The clock after which the server drops the key. -/
  deadline : Option Int
  deriving DecidableEq, Repr

/-- The keys of the server. -/
abbrev Store := String → Option Counter

/-- The keys that the server still has. -/
def Store.visible (store : Store) (now : Int) : Store :=
  fun key => (store key).filter fun c => c.deadline.all (now ≤ ·)

/-- `INCR` counts from zero and keeps the deadline. -/
def incr : Option Counter → Counter
  | none => ⟨1, none⟩
  | some c => { c with value := c.value + 1 }

/-- `EXPIRE` sets the deadline, and drops the key at once when the time is not positive. -/
def expire (c : Counter) (window now : Int) : Option Counter :=
  if window ≤ 0 then none else some { c with deadline := some (now + window * second) }

/-- The answer of the script and the keys it leaves. -/
def periodLimitScript (limit window now : Int) (key : String) (store : Store) : Int × Store :=
  let current := incr (store key)
  let stored := if current.value = 1 then expire current window now else some current
  (if current.value > limit then 0 else 1, update store key stored)

/-- The script starts a counter under an absent key. -/
theorem periodLimitScript_absent {limit window now : Int} {key : String} {store : Store}
    (hlimit : 1 ≤ limit) (hwindow : 1 ≤ window) (h : store key = none) :
    periodLimitScript limit window now key store =
      (1, update store key (some ⟨1, some (now + window * second)⟩)) := by
  have hle : ¬ limit < 1 := by omega
  have hpos : ¬ window ≤ 0 := by omega
  simp [periodLimitScript, incr, expire, h, hle, hpos]

/-- The script goes on with a counter that has counted before. -/
theorem periodLimitScript_present {limit window now : Int} {key : String} {store : Store}
    {c : Counter} (hc : 1 ≤ c.value) (h : store key = some c) :
    periodLimitScript limit window now key store =
      (if c.value + 1 > limit then 0 else 1,
        update store key (some { c with value := c.value + 1 })) := by
  have hne : ¬ c.value + 1 = 1 := by omega
  simp only [periodLimitScript, incr, h, if_neg hne]

/-- The script leaves no counter without a deadline. -/
theorem periodLimitScript_deadline {limit window now : Int} {key k : String} {store : Store}
    (hwindow : 1 ≤ window) (h : ∀ c, store k = some c → ∃ d, c.deadline = some d) {c : Counter}
    (hc : (periodLimitScript limit window now key store).2 k = some c) :
    ∃ d, c.deadline = some d := by
  simp only [periodLimitScript, update_apply] at hc
  split at hc
  · next hk =>
    subst hk
    have hpos : ¬ window ≤ 0 := by omega
    split at hc
    · simp only [expire, if_neg hpos, Option.some.injEq] at hc
      exact ⟨_, by rw [← hc]⟩
    · next hne =>
      obtain rfl := Option.some.inj hc
      cases hstore : store k with
      | none => simp [incr, hstore] at hne
      | some c' => exact h c' hstore
  · exact h c hc

/-- A counter of the limiter's own. -/
structure LocalCounter where
  /-- The calls counted. -/
  count : Int
  /-- The clock after which the counter is forgotten. -/
  expireAt : Int
  deriving DecidableEq, Repr

/-- The fields of a `PeriodLimiter`. -/
structure PeriodLimiter where
  /-- The length of the window in seconds. -/
  period : Int
  /-- The calls allowed in a window. -/
  quota : Int
  /-- What the names of the keys begin with. -/
  keyPrefix : String
  /-- The counters for when Redis is not available. -/
  localCount : String → Option LocalCounter

/-- A limiter starts without counters. -/
def newPeriodLimiter (period quota : Int) (keyPrefix : String) : PeriodLimiter :=
  ⟨period, quota, keyPrefix, fun _ => none⟩

variable (pl : PeriodLimiter)

namespace PeriodLimiter

/-- One pass of the cleanup loop with the clock it has read. -/
def cleanup (now : Int) : PeriodLimiter :=
  { pl with localCount := fun key => (pl.localCount key).filter fun v => ¬ now > v.expireAt }

/-- Only expired counters are removed. -/
theorem cleanup_localCount (now : Int) (key : String) :
    (pl.cleanup now).localCount key = (pl.localCount key).filter fun v => ¬ now > v.expireAt := rfl

/-- Store the counter of a key. -/
def setCounter (key : String) (counter : LocalCounter) : PeriodLimiter :=
  { pl with localCount := update pl.localCount key (some counter) }

/-- Only the counter of the key is set. -/
theorem setCounter_localCount (key : String) (counter : LocalCounter) :
    (pl.setCounter key counter).localCount = update pl.localCount key (some counter) := rfl

/-- The window of the limiter's own counters, `time.Duration(period) * time.Second`. -/
def localWindow : Int := Int.bmod (pl.period * second) (2 ^ 64)

/-- Count a call in the limiter's own table. -/
def localTake (key : String) (now : Int) : LimitStatus × PeriodLimiter :=
  match pl.localCount key with
  | none => (.allowed, pl.setCounter key ⟨1, now + pl.localWindow⟩)
  | some counter =>
    if now > counter.expireAt then (.allowed, pl.setCounter key ⟨1, now + pl.localWindow⟩)
    else
      (if counter.count + 1 > pl.quota then .overQuota else .allowed,
        pl.setCounter key { counter with count := counter.count + 1 })

/-- The name of the key on the server. -/
def fullKey (key : String) : String := pl.keyPrefix ++ ":" ++ key

/-- Count a call on the server, or in the limiter's own table when there is no client or the
script fails. -/
def take (rdb : Option Store) (failed : Bool) (key : String) (now : Int) :
    LimitStatus × PeriodLimiter × Option Store :=
  match rdb with
  | none => ((pl.localTake key now).1, (pl.localTake key now).2, none)
  | some store =>
    if failed then ((pl.localTake key now).1, (pl.localTake key now).2, some store)
    else
      let (result, store) :=
        periodLimitScript pl.quota pl.period now (pl.fullKey key) (store.visible now)
      (if result = 1 then .allowed else .overQuota, pl, some store)

/-- The keys of one limiter are told apart on the server. -/
theorem fullKey_inj {pl : PeriodLimiter} {key key' : String} :
    pl.fullKey key = pl.fullKey key' ↔ key = key' := by
  unfold fullKey
  exact String.append_right_inj _

end PeriodLimiter

end Stardust.Limit
