import Stardust.Limit.SharedBucket

/-!
# The lifetime of the keys

The script lets its keys live for twice the time that the bucket takes to fill, rounded down to
whole seconds. Where that is a second or more, the keys outlive the fill time, and what the server
drops would have been a full bucket. Where it is less, the lifetime is zero, the server refuses to
write the keys, and every limiter falls back to a bucket of its own.
-/

namespace Stardust.Limit

open Stardust.Core

/-- The script computes a positive lifetime that is not shorter than the fill time. -/
def LivesToFill (rate burst : Int) : Prop :=
  ∃ ttl, fillTtl rate burst = some ttl ∧ 0 < ttl ∧ (burst : ℚ) / rate ≤ ttl

/-- Every call is answered from the keys on the server, and no limiter's own bucket is used. -/
def EnforcedOnServer (rate burst : Int) : Prop :=
  ∀ (tl : TokenLimiter) keys now n, tl.rate = rate → tl.burst = burst →
    ∃ allowed b, tokenLimitScript rate burst ⌊now⌋ n keys = some (allowed, b) ∧
      tl.reserveN (some keys) now n = (allowed, tl, some (some b))

/-- Where two executions in a row carry the server's clock, which counts milliseconds and is cut to
seconds, the second finds no more than if the server had kept the keys. -/
def ExpiresToRefill (rate burst : Int) : Prop :=
  ∀ s, (Shared.executions rate burst).Reachable s → ∀ (b : Bucket) (r : Request) (clock : Int),
    s.keys = some b → b.lastRefreshed = clock / 1000 → r.now = (clock + r.idle) / 1000 →
    filledTokens rate burst r.now (s.visible r) ≤ filledTokens rate burst r.now (some b)

variable {rate burst : Int}

/-- The lifetime in the words of the script. -/
theorem fillTtl_eq (hrate : 1 ≤ rate) : fillTtl rate burst = some ((2 * burst).fdiv rate) := by
  have hne : rate ≠ 0 := by omega
  rw [fillTtl, if_neg hne]

/-- The lifetime is positive only when twice the capacity takes a second or more to fill. -/
theorem fill_of_livesToFill (hrate : 1 ≤ rate) (hburst : 1 ≤ burst) (h : LivesToFill rate burst) :
    rate ≤ 2 * burst := by
  obtain ⟨ttl, httl, hpos, -⟩ := h
  by_contra hfill
  rw [fillTtl_eq hrate, fillTtl_eq_zero (by omega) (by omega), Option.some.injEq] at httl
  omega

/-- Rounding down leaves at least the fill time, half of what was rounded. -/
theorem livesToFill (hrate : 1 ≤ rate) (hfill : rate ≤ 2 * burst) : LivesToFill rate burst := by
  refine ⟨_, fillTtl_eq hrate, fillTtl_pos hrate hfill, ?_⟩
  have hcovers : burst ≤ (2 * burst).fdiv rate * rate :=
    capacity_le_refill_of_ttl hrate hfill le_rfl
  have hpos : (0 : ℚ) < rate := by exact_mod_cast (by omega : 0 < rate)
  rw [div_le_iff₀ hpos]
  exact_mod_cast hcovers

/-- A positive lifetime is accepted, so that the script answers. -/
theorem enforcedOnServer (hrate : 1 ≤ rate) (hfill : rate ≤ 2 * burst) :
    EnforcedOnServer rate burst := by
  rintro tl keys now n rfl rfl
  have hanswer : (tokenLimitScript tl.rate tl.burst ⌊now⌋ n keys).isSome :=
    tokenLimitScript_isSome hrate hfill
  obtain ⟨⟨allowed, b⟩, hscript⟩ := Option.isSome_iff_exists.mp hanswer
  refine ⟨allowed, b, hscript, ?_⟩
  simp only [TokenLimiter.reserveN, hscript]

namespace Shared

/-- What an execution leaves under the keys. -/
structure Stored (rate burst : Int) (s : Shared) : Prop where
  /-- There is no debt. -/
  nonneg : ∀ b ∈ s.keys, 0 ≤ b.tokens
  /-- The keys live as long as the script has said. -/
  lifetime : ∀ b ∈ s.keys, b.ttl = (2 * burst).fdiv rate

/-- An execution leaves no debt, whatever the clock of its host is. -/
theorem Stored.execute (hrate : 1 ≤ rate) (hfill : rate ≤ 2 * burst) {s s' : Shared} {r : Request}
    (h : Stored rate burst s) (hstep : s.execute rate burst r = some s') :
    Stored rate burst s' := by
  obtain ⟨⟨allowed, b⟩, hscript, rfl⟩ := Option.map_eq_some_iff.mp hstep
  have hvisible : ∀ b ∈ s.visible r, 0 ≤ b.tokens := fun b hb =>
    h.nonneg b (Option.filter_eq_some_iff.mp hb).1
  have hfilled : 0 ≤ filledTokens rate burst r.now (s.visible r) :=
    filledTokens_nonneg (by omega) (by omega) hvisible
  refine ⟨?_, ?_⟩
  · rintro b' ⟨⟩
    exact (tokenLimitScript_spec hscript).2.1 hfilled
  · rintro b' ⟨⟩
    rw [tokenLimitScript_eq hrate hfill, Option.some.injEq, Prod.mk.injEq] at hscript
    rw [← hscript.2]

/-- The keys of every run hold no debt and have the lifetime of the script. -/
theorem stored_of_reachable (hrate : 1 ≤ rate) (hfill : rate ≤ 2 * burst) {s : Shared}
    (h : (executions rate burst).Reachable s) : Stored rate burst s := by
  refine h.invariant ?_ fun s r s' hs hstep => hs.execute hrate hfill hstep
  rintro s rfl
  exact ⟨nofun, nofun⟩

end Shared

/-- Keys that the server has dropped would have held a full bucket. -/
theorem expiresToRefill (hrate : 1 ≤ rate) (hfill : rate ≤ 2 * burst) :
    ExpiresToRefill rate burst := by
  intro s hs b r clock hkeys hlast hnow
  have hstored := Shared.stored_of_reachable hrate hfill hs
  by_cases halive : b.Alive r.idle
  · have hvisible : s.visible r = some b := by simp [Shared.visible, hkeys, halive]
    rw [hvisible]
  · have hvisible : s.visible r = none := by simp [Shared.visible, hkeys, halive]
    have helapsed : (2 * burst).fdiv rate ≤ r.now - b.lastRefreshed := by
      rw [Bucket.Alive, hstored.lifetime b hkeys] at halive
      omega
    have hnonneg := hstored.nonneg b hkeys
    have hrefill := capacity_le_refill_of_ttl hrate hfill helapsed
    have hdelta : r.now - b.lastRefreshed ≤ max 0 (r.now - b.lastRefreshed) := le_max_right ..
    have hearned : burst ≤ max 0 (r.now - b.lastRefreshed) * rate :=
      hrefill.trans (mul_le_mul_of_nonneg_right hdelta (by omega))
    rw [hvisible]
    refine filledTokens_le.trans (le_min le_rfl ?_)
    simp only [Option.map_some, Option.getD_some]
    omega

/-- The keys live long enough to be accepted, to keep the limit on the server and to expire
unnoticed, exactly when the rate is at most twice the burst. -/
theorem lifetime_sound_iff (rate burst : Int) (hrate : 1 ≤ rate) (hburst : 1 ≤ burst) :
    LivesToFill rate burst ∧ EnforcedOnServer rate burst ∧ ExpiresToRefill rate burst ↔
      rate ≤ 2 * burst := by
  constructor
  · rintro ⟨hlives, -, -⟩
    exact fill_of_livesToFill hrate hburst hlives
  · intro hfill
    exact ⟨livesToFill hrate hfill, enforcedOnServer hrate hfill, expiresToRefill hrate hfill⟩

/-- The keys of a limiter with three tokens a second and a burst of five live three seconds. -/
theorem lifetime_sound_at_three_to_five :
    LivesToFill 3 5 ∧ EnforcedOnServer 3 5 ∧ ExpiresToRefill 3 5 :=
  (lifetime_sound_iff 3 5 (by decide) (by decide)).mpr (by decide)

/-- With ten tokens a second and a burst of one the lifetime is zero. The script writes no keys, and
two hosts are both given the only token at one moment. -/
theorem lifetime_zero_at_ten_to_one :
    fillTtl 10 1 = some 0 ∧ setex (fillTtl 10 1) = none ∧
      tokenLimitScript 10 1 0 1 none = none ∧ ¬ EnforcedOnServer 10 1 ∧
      (newTokenLimiter 10 1 "api" 0).allowN (some none) 0 1 =
        (true, { newTokenLimiter 10 1 "api" 0 with localTokens := 0 }, some none) := by
  refine ⟨by decide, by decide, by decide, fun h => ?_, by decide +kernel⟩
  obtain ⟨allowed, b, hscript, -⟩ := h (newTokenLimiter 10 1 "api" 0) none 0 1 rfl rfl
  rw [tokenLimitScript_eq_none (by decide) (by decide)] at hscript
  exact nomatch hscript

end Stardust.Limit
