import Stardust.Core.Answers
import Stardust.Limit.SharedBucket

/-!
# The limiter with Redis and without

A limiter that has the keys on a server to itself, by the clock of its callers, against one
that only has its own bucket. The keys forget the bucket when their time is over, but by then
it is full, which is what absent keys mean to the script.
-/

namespace Stardust.Limit

open Stardust.Core TokenLimiter

/-- One call of `AllowN` at a whole second. -/
structure Call where
  /-- The clock of the caller. -/
  now : Int
  n : Int
  deriving DecidableEq, Repr

/-- A limiter and what it last wrote under its keys, on a server with the clock of the callers. -/
structure Backed where
  limiter : TokenLimiter
  /-- The keys, kept when the server has dropped them. -/
  keys : Option Bucket
  deriving DecidableEq, Repr

/-- The keys that the server still has. -/
def Backed.visible (s : Backed) (now : Int) : Option Bucket :=
  s.keys.filter fun b => b.Alive (1000 * (now - b.lastRefreshed)).toNat

/-- A call with the server at hand. -/
def Backed.allowN (s : Backed) (c : Call) : Bool × Backed :=
  let (allowed, limiter, rdb) := s.limiter.allowN (some (s.visible c.now)) c.now c.n
  (allowed, ⟨limiter, rdb.join⟩)

/-- A call without a server. -/
def TokenLimiter.allowLocally (tl : TokenLimiter) (c : Call) : Bool × TokenLimiter :=
  let (allowed, limiter, _) := tl.allowN none c.now c.n
  (allowed, limiter)

/-- The tokens that a limiter finds in its own bucket. -/
def TokenLimiter.refilled (tl : TokenLimiter) (now : ℚ) : ℚ :=
  min tl.burst (tl.localTokens + (now - tl.localLast) * tl.rate)

/-- The answer of the limiter's own bucket by the tokens it finds. -/
theorem TokenLimiter.localAllow_eq (tl : TokenLimiter) (now : ℚ) (n : Int) :
    tl.localAllow now n = (decide (n ≤ tl.refilled now),
      { tl with
        localTokens := if n ≤ tl.refilled now then tl.refilled now - n else tl.refilled now
        localLast := now }) := by
  have hcap : (if tl.localTokens + (now - tl.localLast) * tl.rate > tl.burst then (tl.burst : ℚ)
      else tl.localTokens + (now - tl.localLast) * tl.rate) = tl.refilled now := by
    rw [refilled, min_def]
    split_ifs <;> linarith
  simp only [localAllow, hcap, ge_iff_le]
  by_cases h : n ≤ tl.refilled now <;> simp [h]

/-- The two limiters have the same tokens, those under the keys being full when there are none. -/
structure Agrees (rate burst : Int) (s : Backed) (tl : TokenLimiter) (calls : List Call) :
    Prop where
  /-- The settings of the limiter with a server. -/
  backed : s.limiter.rate = rate ∧ s.limiter.burst = burst
  /-- The settings of the limiter without one. -/
  alone : tl.rate = rate ∧ tl.burst = burst
  /-- Without keys the bucket is full. -/
  full : s.keys = none → tl.localTokens = burst
  /-- The keys hold the bucket, with no debt and the lifetime of the script. -/
  stored : ∀ b ∈ s.keys, b.tokens = tl.localTokens ∧ b.lastRefreshed = tl.localLast ∧
    0 ≤ b.tokens ∧ b.ttl = (2 * burst).fdiv rate
  /-- The calls to come are not before the last refill. -/
  ahead : ∀ c ∈ calls, tl.localLast ≤ c.now
  /-- The calls come in the order of their clocks. -/
  sorted : calls.Pairwise (·.now ≤ ·.now)

variable {rate burst : Int} {s : Backed} {tl : TokenLimiter} {c : Call} {calls : List Call}

/-- The script finds what the limiter without a server finds. -/
theorem Agrees.filled (hrate : 1 ≤ rate) (hfill : rate ≤ 2 * burst)
    (h : Agrees rate burst s tl (c :: calls)) :
    (filledTokens rate burst c.now (s.visible c.now) : ℚ) = tl.refilled c.now := by
  have hlast := h.ahead c List.mem_cons_self
  have hrate' : (0 : ℚ) ≤ rate := by exact_mod_cast (by omega : 0 ≤ rate)
  rw [refilled, h.alone.1, h.alone.2]
  have hempty : (filledTokens rate burst c.now none : ℚ) = burst := by
    have hfull : filledTokens rate burst c.now none = burst := by
      refine min_eq_left ?_
      have hdelta : 0 ≤ max 0 (c.now - 0) * rate := mul_nonneg (le_max_left ..) (by omega)
      simpa [filledTokens] using hdelta
    rw [hfull]
  cases hkeys : s.keys with
  | none =>
    have hvisible : s.visible c.now = none := by simp [Backed.visible, hkeys]
    rw [hvisible, hempty, h.full hkeys, min_eq_left]
    have hrefill : 0 ≤ (c.now - tl.localLast) * rate := mul_nonneg (by linarith) hrate'
    linarith
  | some b =>
    obtain ⟨htokens, hrefreshed, hnonneg, httl⟩ := h.stored b hkeys
    have hle : b.lastRefreshed ≤ c.now := by
      rw [← hrefreshed] at hlast
      exact_mod_cast hlast
    rw [← htokens, ← hrefreshed]
    by_cases halive : b.Alive (1000 * (c.now - b.lastRefreshed)).toNat
    · have hvisible : s.visible c.now = some b := by simp [Backed.visible, hkeys, halive]
      have hdelta : max 0 (c.now - b.lastRefreshed) = c.now - b.lastRefreshed :=
        max_eq_right (by omega)
      rw [hvisible]
      simp only [filledTokens, Option.map_some, Option.getD_some, hdelta]
      push_cast
      rfl
    · have hvisible : s.visible c.now = none := by simp [Backed.visible, hkeys, halive]
      have helapsed : (2 * burst).fdiv rate ≤ c.now - b.lastRefreshed := by
        unfold Bucket.Alive at halive
        rw [httl] at halive
        omega
      have hrefill : burst ≤ b.tokens + (c.now - b.lastRefreshed) * rate := by
        have hcapacity := capacity_le_refill_of_ttl hrate hfill helapsed
        omega
      rw [hvisible, hempty, min_eq_left]
      exact_mod_cast hrefill

/-- A call that the script answers. -/
theorem Backed.allowN_eq (hrate : 1 ≤ rate) (hfill : rate ≤ 2 * burst)
    (hsettings : s.limiter.rate = rate ∧ s.limiter.burst = burst) (c : Call) :
    s.allowN c = (decide (c.n ≤ filledTokens rate burst c.now (s.visible c.now)),
      ⟨s.limiter, some ⟨if c.n ≤ filledTokens rate burst c.now (s.visible c.now) then
          filledTokens rate burst c.now (s.visible c.now) - c.n
        else filledTokens rate burst c.now (s.visible c.now), c.now, (2 * burst).fdiv rate⟩⟩) := by
  simp only [Backed.allowN, TokenLimiter.allowN, TokenLimiter.reserveN, hsettings.1, hsettings.2,
    Int.floor_intCast, tokenLimitScript_eq hrate hfill, Option.join_some]

/-- A call keeps the two limiters in agreement. -/
theorem Agrees.step (hrate : 1 ≤ rate) (hburst : 1 ≤ burst) (hfill : rate ≤ 2 * burst)
    (h : Agrees rate burst s tl (c :: calls)) :
    (s.allowN c).1 = (tl.allowLocally c).1 ∧
      Agrees rate burst (s.allowN c).2 (tl.allowLocally c).2 calls := by
  have hnonneg : 0 ≤ filledTokens rate burst c.now (s.visible c.now) := by
    refine filledTokens_nonneg (by omega) (by omega) fun b hb => ?_
    exact (h.stored b (Option.filter_eq_some_iff.mp hb).1).2.2.1
  have halone : tl.allowLocally c = tl.localAllow c.now c.n := rfl
  obtain ⟨hahead, hsorted⟩ := List.pairwise_cons.mp h.sorted
  rw [Backed.allowN_eq hrate hfill h.backed, halone, localAllow_eq,
    ← h.filled hrate hfill]
  simp only [Int.cast_le]
  refine ⟨trivial, h.backed, h.alone, nofun, ?_, fun c' hc' => ?_, hsorted⟩
  · rintro b ⟨⟩
    refine ⟨?_, rfl, ?_, rfl⟩
    · dsimp only
      split <;> push_cast <;> rfl
    · dsimp only
      split <;> omega
  · have hnext : (c.now : ℚ) ≤ c'.now := by exact_mod_cast hahead c' hc'
    exact hnext

/-- A new limiter has a full bucket and no keys. -/
theorem agrees_new (rate burst : Int) (key : String) (created : ℚ) (calls : List Call)
    (hcreated : ∀ c ∈ calls, created ≤ c.now) (hsorted : calls.Pairwise (·.now ≤ ·.now)) :
    Agrees rate burst ⟨newTokenLimiter rate burst key created, none⟩
      (newTokenLimiter rate burst key created) calls where
  backed := ⟨rfl, rfl⟩
  alone := ⟨rfl, rfl⟩
  full := fun _ => rfl
  stored := nofun
  ahead := hcreated
  sorted := hsorted

/-- Where the script is aborted, every answer is that of the limiter's own bucket. -/
theorem allowN_eq_of_aborted (hburst : 1 ≤ burst) (hfill : 2 * burst < rate)
    (hsettings : tl.rate = rate ∧ tl.burst = burst) (keys : Option Bucket) (c : Call) :
    (Backed.allowN ⟨tl, keys⟩ c).1 = (tl.allowLocally c).1 ∧
      (Backed.allowN ⟨tl, keys⟩ c).2.limiter = (tl.allowLocally c).2 := by
  simp only [Backed.allowN, allowN, reserveN, hsettings.1, hsettings.2,
    tokenLimitScript_eq_none (by omega : 0 ≤ burst) hfill, allowLocally, and_self]

/-- A limiter gives the same answers with a server at hand as without one, whatever its rate and
capacity, to calls that come in the order of their clocks. -/
theorem answers_with_redis_eq_without (rate burst : Int) (hrate : 1 ≤ rate) (hburst : 1 ≤ burst)
    (key : String) (created : ℚ) (calls : List Call) (hcreated : ∀ c ∈ calls, created ≤ c.now)
    (hsorted : calls.Pairwise (·.now ≤ ·.now)) :
    answers Backed.allowN ⟨newTokenLimiter rate burst key created, none⟩ calls =
      answers allowLocally (newTokenLimiter rate burst key created) calls := by
  by_cases hfill : rate ≤ 2 * burst
  · have hstep : ∀ s tl c calls, Agrees rate burst s tl (c :: calls) →
        (s.allowN c).1 = (tl.allowLocally c).1 ∧
          Agrees rate burst (s.allowN c).2 (tl.allowLocally c).2 calls :=
      fun s tl c calls h => h.step hrate hburst hfill
    exact answers_eq_of_simulation hstep
      (agrees_new rate burst key created calls hcreated hsorted)
  · refine answers_eq_of_simulation
      (R := fun s tl _ => s.limiter = tl ∧ tl.rate = rate ∧ tl.burst = burst) ?_ ⟨rfl, rfl, rfl⟩
    rintro ⟨limiter, keys⟩ tl c calls ⟨rfl, hsettings⟩
    obtain ⟨hanswer, hnext⟩ := allowN_eq_of_aborted hburst (by omega) hsettings keys c
    refine ⟨hanswer, hnext, ?_⟩
    have halone : limiter.allowLocally c = limiter.localAllow c.now c.n := rfl
    rw [halone, localAllow_eq]
    exact hsettings

/-- A burst, a denied call, a refill of two seconds, and a call after the keys were dropped. -/
theorem answers_with_redis_eq_without_after_expiry :
    answers Backed.allowN ⟨newTokenLimiter 3 5 "orders" (1 / 2), none⟩
        [⟨1, 5⟩, ⟨1, 1⟩, ⟨3, 4⟩, ⟨7, 5⟩] =
      answers allowLocally (newTokenLimiter 3 5 "orders" (1 / 2))
        [⟨1, 5⟩, ⟨1, 1⟩, ⟨3, 4⟩, ⟨7, 5⟩] := by
  refine answers_with_redis_eq_without 3 5 (by decide) (by decide) "orders" (1 / 2) _ ?_ (by decide)
  intro c hc
  have hone : 1 ≤ c.now := by
    revert c
    decide
  have hcast : (1 : ℚ) ≤ c.now := by exact_mod_cast hone
  linarith

end Stardust.Limit
