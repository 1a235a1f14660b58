import Mathlib.Data.Rat.Floor
import Mathlib.Order.MinMax
import Mathlib.Tactic.Positivity

/-!
# The token limiter

One execution of `tokenLimitScript` on the two keys of a limiter. Amounts and
clock readings are integers, as `reserveN` passes them; clocks count seconds.
A script that Redis aborts has no result, and then neither key is written. The
bucket that a limiter keeps for itself is in exact rational arithmetic.
-/

namespace Stardust.Limit

/-- What an execution of the script leaves under the two keys of a limiter. -/
structure Bucket where
  /-- The value of the `:tokens` key. -/
  tokens : Int
  /-- The value of the `:ts` key. -/
  lastRefreshed : Int
  /-- The seconds after which the server drops both keys. -/
  ttl : Int
  deriving DecidableEq, Repr

/-- The lifetime the script computes, not a number for a zero rate. -/
def fillTtl (rate capacity : Int) : Option Int :=
  if rate = 0 then none else some ((2 * capacity).fdiv rate)

/-- `SETEX` takes only a positive lifetime. -/
def setex (ttl : Option Int) : Option Int := ttl.filter (0 < ·)

/-- The tokens the script finds: a full bucket without keys, else the stored ones
and the refill since, up to the capacity. -/
def filledTokens (rate capacity now : Int) (keys : Option Bucket) : Int :=
  let lastTokens := (keys.map Bucket.tokens).getD capacity
  let lastRefreshed := (keys.map Bucket.lastRefreshed).getD 0
  let delta := max 0 (now - lastRefreshed)
  min capacity (lastTokens + delta * rate)

/-- The answer of the script and the keys it writes, whether it allows or not. -/
def tokenLimitScript (rate capacity now requested : Int) (keys : Option Bucket) :
    Option (Bool × Bucket) :=
  let filled := filledTokens rate capacity now keys
  let allowed := decide (filled ≥ requested)
  let newTokens := if allowed then filled - requested else filled
  (setex (fillTtl rate capacity)).map fun ttl => (allowed, ⟨newTokens, now, ttl⟩)

/-- The fields of a `TokenLimiter`. -/
structure TokenLimiter where
  /-- The tokens made in a second. -/
  rate : Int
  /-- The capacity of the bucket. -/
  burst : Int
  /-- What the names of the two keys begin with. -/
  key : String
  /-- The tokens of the bucket for when Redis is not available. -/
  localTokens : ℚ
  /-- The clock of the last refill of that bucket, in seconds. -/
  localLast : ℚ
  deriving DecidableEq, Repr

/-- A limiter starts with a full bucket. -/
def newTokenLimiter (rate burst : Int) (key : String) (now : ℚ) : TokenLimiter :=
  ⟨rate, burst, key, burst, now⟩

/-- Refill the limiter's own bucket and take from it. -/
def TokenLimiter.localAllow (tl : TokenLimiter) (now : ℚ) (n : Int) : Bool × TokenLimiter :=
  let elapsed := now - tl.localLast
  let tokens := tl.localTokens + elapsed * tl.rate
  let tokens := if tokens > tl.burst then (tl.burst : ℚ) else tokens
  if tokens ≥ n then (true, { tl with localTokens := tokens - n, localLast := now })
  else (false, { tl with localTokens := tokens, localLast := now })

/-- Ask the script, given what it finds under the keys, or the limiter's own bucket when there is
no client or the script is aborted. -/
def TokenLimiter.reserveN (tl : TokenLimiter) (rdb : Option (Option Bucket)) (now : ℚ) (n : Int) :
    Bool × TokenLimiter × Option (Option Bucket) :=
  match rdb with
  | none => ((tl.localAllow now n).1, (tl.localAllow now n).2, none)
  | some keys =>
    match tokenLimitScript tl.rate tl.burst ⌊now⌋ n keys with
    | none => ((tl.localAllow now n).1, (tl.localAllow now n).2, some keys)
    | some (allowed, b) => (allowed, tl, some (some b))

/-- Whether `n` requests are allowed. -/
def TokenLimiter.allowN (tl : TokenLimiter) (rdb : Option (Option Bucket)) (now : ℚ) (n : Int) :
    Bool × TokenLimiter × Option (Option Bucket) :=
  tl.reserveN rdb now n

variable {rate capacity now requested : Int} {keys : Option Bucket}

/-- The lifetime is positive when twice the capacity takes a second or more to fill. -/
theorem fillTtl_pos (hrate : 1 ≤ rate) (hfill : rate ≤ 2 * capacity) :
    0 < (2 * capacity).fdiv rate := by
  rw [Int.fdiv_eq_ediv_of_nonneg _ (by omega)]
  exact Int.le_ediv_of_mul_le (by omega) (by omega)

/-- The lifetime rounds down to no time when twice the capacity fills in less than a second. -/
theorem fillTtl_eq_zero (hcapacity : 0 ≤ capacity) (hfill : 2 * capacity < rate) :
    (2 * capacity).fdiv rate = 0 := by
  rw [Int.fdiv_eq_ediv_of_nonneg _ (by omega)]
  exact Int.ediv_eq_zero_of_lt (by omega) hfill

/-- The script is aborted when twice the capacity fills in less than a second. -/
theorem tokenLimitScript_eq_none (hcapacity : 0 ≤ capacity) (hfill : 2 * capacity < rate) :
    tokenLimitScript rate capacity now requested keys = none := by
  have httl := fillTtl_eq_zero hcapacity hfill
  have hne : rate ≠ 0 := by omega
  simp [tokenLimitScript, setex, fillTtl, hne, httl]

/-- What the script answers and writes when it is not aborted. -/
theorem tokenLimitScript_eq (hrate : 1 ≤ rate) (hfill : rate ≤ 2 * capacity) :
    tokenLimitScript rate capacity now requested keys =
      some (decide (requested ≤ filledTokens rate capacity now keys),
        ⟨if requested ≤ filledTokens rate capacity now keys then
            filledTokens rate capacity now keys - requested
          else filledTokens rate capacity now keys, now, (2 * capacity).fdiv rate⟩) := by
  have httl := fillTtl_pos hrate hfill
  have hne : rate ≠ 0 := by omega
  simp [tokenLimitScript, setex, fillTtl, hne, httl]

/-- The script is not aborted when twice the capacity takes a second or more to fill. -/
theorem tokenLimitScript_isSome (hrate : 1 ≤ rate) (hfill : rate ≤ 2 * capacity) :
    (tokenLimitScript rate capacity now requested keys).isSome := by
  rw [tokenLimitScript_eq hrate hfill]
  rfl

/-- A bucket is full again when its keys have lived out their time. -/
theorem capacity_le_refill_of_ttl (hrate : 1 ≤ rate) (hfill : rate ≤ 2 * capacity) {elapsed : Int}
    (h : (2 * capacity).fdiv rate ≤ elapsed) : capacity ≤ elapsed * rate := by
  have httl := fillTtl_pos hrate hfill
  rw [Int.fdiv_eq_ediv_of_nonneg _ (by omega)] at h httl
  have hdiv := Int.ediv_mul_add_emod (2 * capacity) rate
  have hmod := Int.emod_lt_of_pos (2 * capacity) (b := rate) (by omega)
  have hone : rate ≤ 2 * capacity / rate * rate := le_mul_of_one_le_left (by omega) httl
  calc capacity ≤ 2 * capacity / rate * rate := by omega
    _ ≤ elapsed * rate := by gcongr

/-- What the script grants and leaves is what it found; it leaves no debt where it
found none, and stores the clock of its caller. -/
theorem tokenLimitScript_spec {allowed : Bool} {b : Bucket}
    (h : tokenLimitScript rate capacity now requested keys = some (allowed, b)) :
    (if allowed then requested else 0) + b.tokens = filledTokens rate capacity now keys ∧
      (0 ≤ filledTokens rate capacity now keys → 0 ≤ b.tokens) ∧ b.lastRefreshed = now := by
  obtain ⟨ttl, -, hresult⟩ := Option.map_eq_some_iff.mp h
  obtain ⟨hallowed, rfl⟩ := Prod.mk.inj hresult
  by_cases hle : requested ≤ filledTokens rate capacity now keys
  · obtain rfl : allowed = true := by rw [← hallowed]; exact decide_eq_true hle
    refine ⟨?_, fun _ => ?_, rfl⟩ <;> simp only [hallowed, if_true] <;> omega
  · obtain rfl : allowed = false := by rw [← hallowed]; exact decide_eq_false hle
    refine ⟨?_, fun hpos => ?_, rfl⟩
    · simp [hle]
    · simpa [hle] using hpos

/-- The bucket is never filled beyond its capacity. -/
theorem filledTokens_le : filledTokens rate capacity now keys ≤ capacity := min_le_left ..

/-- A bucket without a debt is filled to no debt. -/
theorem filledTokens_nonneg (hrate : 0 ≤ rate) (hcapacity : 0 ≤ capacity)
    (hkeys : ∀ b ∈ keys, 0 ≤ b.tokens) : 0 ≤ filledTokens rate capacity now keys := by
  have hdelta (last : Int) : 0 ≤ max 0 (now - last) * rate :=
    mul_nonneg (le_max_left ..) hrate
  cases keys with
  | none => exact le_min hcapacity (add_nonneg hcapacity (hdelta 0))
  | some b => exact le_min hcapacity (add_nonneg (hkeys b rfl) (hdelta b.lastRefreshed))

/-- With a clock that is not behind the stored one the refill is the elapsed time's. -/
theorem filledTokens_le_refill {b : Bucket} (h : b.lastRefreshed ≤ now) :
    filledTokens rate capacity now (some b) ≤
      b.tokens + rate * (now - b.lastRefreshed) := by
  have hdelta : max 0 (now - b.lastRefreshed) = now - b.lastRefreshed :=
    max_eq_right (by omega)
  calc filledTokens rate capacity now (some b)
      ≤ b.tokens + max 0 (now - b.lastRefreshed) * rate := min_le_right ..
    _ = b.tokens + rate * (now - b.lastRefreshed) := by rw [hdelta, mul_comm]

end Stardust.Limit
