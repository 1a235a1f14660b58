import Stardust.Core.System
import Stardust.Core.TokenBucket
import Stardust.Limit.TokenLimit

/-!
# One bucket shared by several hosts

Every execution of the script carries the clock of the host that sends it, and the
server drops the keys by a clock of its own. The stored refresh time is the clock of
the last sender, whatever it was, so a host that is behind turns the refresh time
back and the next one ahead of it is given the same refill again.
-/

namespace Stardust.Limit

open Stardust.Core

/-- The keys of one limiter, with the record of the answers given so far. -/
structure Shared where
  /-- What the last execution wrote, kept when the server has dropped it. -/
  keys : Option Bucket
  /-- The answers in the order of the executions. -/
  draws : List (Draw Int)
  deriving DecidableEq, Repr

/-- One execution of the script. -/
structure Request where
  /-- The clock of the host, in seconds. -/
  now : Int
  /-- The amount asked for. -/
  requested : Int
  /-- The milliseconds of the server's clock since the execution before. -/
  idle : Nat
  deriving DecidableEq, Repr

/-- The server still has the keys. -/
def Bucket.Alive (b : Bucket) (idle : Nat) : Prop := (idle : Int) ≤ 1000 * b.ttl

instance (b : Bucket) (idle : Nat) : Decidable (b.Alive idle) :=
  inferInstanceAs (Decidable (_ ≤ _))

namespace Shared

/-- Before the first execution. -/
def fresh : Shared := ⟨none, []⟩

/-- The keys an execution reads. -/
def visible (s : Shared) (r : Request) : Option Bucket := s.keys.filter (·.Alive r.idle)

/-- Execute the script and record its answer. -/
def execute (rate burst : Int) (s : Shared) (r : Request) : Option Shared :=
  (tokenLimitScript rate burst r.now r.requested (s.visible r)).map fun (allowed, b) =>
    ⟨some b, s.draws ++ [⟨r.now, if allowed then r.requested else 0, b.tokens⟩]⟩

/-- The executions on one pair of keys, from the first on. -/
def executions (rate burst : Int) : System Shared Request where
  init s := s = fresh
  step := execute rate burst

/-- Over every window of the executions the amount granted is within the burst and the
refill over the clocks of the window. -/
def WithinBurst (rate burst : Int) (s : Shared) : Prop :=
  ∀ before window after lo hi, s.draws = before ++ window ++ after →
    (window.map Draw.time).min? = some lo → (window.map Draw.time).max? = some hi →
    Draw.total window ≤ burst + rate * (hi - lo)

/-- The clock of the host is not behind the stored one, and keys that the server dropped
would have held a full bucket by now. -/
def InStep (rate burst : Int) (s : Shared) (r : Request) : Prop :=
  ∀ b ∈ s.keys, (b.Alive r.idle → b.lastRefreshed ≤ r.now) ∧
    (¬ b.Alive r.idle → burst ≤ b.tokens + rate * (r.now - b.lastRefreshed))

instance (rate burst : Int) (s : Shared) (r : Request) : Decidable (InStep rate burst s r) :=
  match h : s.keys with
  | none => isTrue fun b hb => by simp [h] at hb
  | some b => decidable_of_iff ((b.Alive r.idle → b.lastRefreshed ≤ r.now) ∧
      (¬ b.Alive r.idle → burst ≤ b.tokens + rate * (r.now - b.lastRefreshed)))
      (by simp [InStep, h])

/-- The record is metered, and the keys hold what its last draw left. -/
structure Sound (rate burst : Int) (s : Shared) : Prop where
  /-- No draw was given more than the refill. -/
  metered : Draw.Metered rate burst s.draws
  /-- No draw left a debt. -/
  nonneg : ∀ d ∈ s.draws, 0 ≤ d.left
  /-- The keys are those of the last draw. -/
  stored : (s.draws.getLast?.map fun d => (d.left, d.time)) =
    s.keys.map fun b => (b.tokens, b.lastRefreshed)

variable {rate burst : Int} {s s' : Shared} {r : Request}

/-- The last draw left the tokens and the clock that the keys hold. -/
theorem Sound.keys_of_last (h : Sound rate burst s) {d : Draw Int} (hd : d ∈ s.draws.getLast?) :
    ∃ b, s.keys = some b ∧ b.tokens = d.left ∧ b.lastRefreshed = d.time := by
  have hstored := h.stored
  rw [Option.mem_def.mp hd, Option.map_some, eq_comm, Option.map_eq_some_iff] at hstored
  obtain ⟨b, hb, heq⟩ := hstored
  exact ⟨b, hb, congrArg Prod.fst heq, congrArg Prod.snd heq⟩

/-- The keys hold no debt. -/
theorem Sound.tokens_nonneg (h : Sound rate burst s) {b : Bucket} (hb : s.keys = some b) :
    0 ≤ b.tokens := by
  have hstored := h.stored
  rw [hb, Option.map_some, Option.map_eq_some_iff] at hstored
  obtain ⟨d, hd, heq⟩ := hstored
  have htokens : d.left = b.tokens := congrArg Prod.fst heq
  rw [← htokens]
  exact h.nonneg d (List.mem_of_getLast? hd)

/-- A request in step finds no more than the stored tokens and the refill since. -/
theorem filled_le_of_inStep (hg : InStep rate burst s r) {b : Bucket} (hb : s.keys = some b) :
    filledTokens rate burst r.now (s.visible r) ≤ b.tokens + rate * (r.now - b.lastRefreshed) := by
  obtain ⟨halive, hdropped⟩ := hg b hb
  by_cases h : b.Alive r.idle
  · have hvisible : s.visible r = some b := by simp [visible, hb, h]
    rw [hvisible]
    exact filledTokens_le_refill (halive h)
  · exact filledTokens_le.trans (hdropped h)

/-- An execution in step keeps the record metered. -/
theorem Sound.execute (hrate : 0 ≤ rate) (hburst : 0 ≤ burst) (h : Sound rate burst s)
    (hg : InStep rate burst s r) (hstep : s.execute rate burst r = some s') :
    Sound rate burst s' := by
  obtain ⟨⟨allowed, b⟩, hscript, rfl⟩ := Option.map_eq_some_iff.mp hstep
  obtain ⟨hsum, hdebt, hnow⟩ := tokenLimitScript_spec hscript
  have hvisible : ∀ b ∈ s.visible r, 0 ≤ b.tokens := fun b hb =>
    h.tokens_nonneg (Option.filter_eq_some_iff.mp hb).1
  have hleft : 0 ≤ b.tokens := hdebt (filledTokens_nonneg hrate hburst hvisible)
  refine ⟨h.metered.concat (hsum.trans_le filledTokens_le) fun d hd => ?_, fun d hd => ?_, ?_⟩
  · obtain ⟨b', hb', htokens, htime⟩ := h.keys_of_last hd
    have hfilled := filled_le_of_inStep hg hb'
    rw [htokens, htime] at hfilled
    exact hsum.trans_le hfilled
  · rcases List.mem_append.mp hd with hd | hd
    · exact h.nonneg d hd
    · rw [List.mem_singleton.mp hd]
      exact hleft
  · simp [hnow]

/-- A sound record is within the burst over every window. -/
theorem Sound.withinBurst (hrate : 0 ≤ rate) (h : Sound rate burst s) :
    WithinBurst rate burst s := by
  intro before window after lo hi hdraws hlo hhi
  cases window with
  | nil => cases hlo
  | cons d window =>
    have hmetered := h.metered
    have hnonneg := h.nonneg
    rw [hdraws] at hmetered hnonneg
    have hlast : window.getLastD d ∈ d :: window := List.getLastD_mem_cons ..
    have hbound := hmetered.window.total_add_left_le
    have hleft : 0 ≤ (window.getLastD d).left :=
      hnonneg _ (List.mem_append_left _ (List.mem_append_right _ hlast))
    have hfirst : lo ≤ d.time := (List.min?_eq_some_iff.mp hlo).2 _ (by simp)
    have hend : (window.getLastD d).time ≤ hi :=
      (List.max?_eq_some_iff.mp hhi).2 _ (List.mem_map_of_mem hlast)
    calc Draw.total (d :: window)
        ≤ burst + rate * ((window.getLastD d).time - d.time) := by omega
      _ ≤ burst + rate * (hi - lo) := by gcongr

/-- Nothing was granted before the first execution. -/
theorem sound_fresh : Sound rate burst fresh :=
  ⟨Draw.metered_nil, fun _ h => absurd h List.not_mem_nil, rfl⟩

/-- Every execution is answered. -/
theorem run_isSome (hrate : 1 ≤ rate) (hfill : rate ≤ 2 * burst) (s : Shared)
    (requests : List Request) : ∃ s', (executions rate burst).run s requests = some s' := by
  induction requests generalizing s with
  | nil => exact ⟨s, rfl⟩
  | cons r requests ih =>
    have hanswer : (tokenLimitScript rate burst r.now r.requested (s.visible r)).isSome :=
      tokenLimitScript_isSome hrate hfill
    have hstep : ((executions rate burst).step s r).isSome := by
      simpa [executions, Shared.execute] using hanswer
    obtain ⟨t, ht⟩ := Option.isSome_iff_exists.mp hstep
    obtain ⟨s', hs'⟩ := ih t
    exact ⟨s', (executions rate burst).run_cons_iff.mpr ⟨t, ht, hs'⟩⟩

/-- Executions in step are all answered, and over every window of them the amount granted
is within the burst and the refill over the clocks of the window. -/
theorem within_burst_of_in_step (rate burst : Int) (hrate : 1 ≤ rate) (hburst : 1 ≤ burst)
    (hfill : rate ≤ 2 * burst) (requests : List Request)
    (hg : (executions rate burst).Guarded (InStep rate burst) fresh requests) :
    ∃ s, (executions rate burst).run fresh requests = some s ∧ WithinBurst rate burst s := by
  obtain ⟨s, hs⟩ := run_isSome hrate hfill fresh requests
  have hsound : Sound rate burst s := (executions rate burst).run_guarded
    (fun _ _ _ h hg hstep => h.execute (by omega) (by omega) hg hstep) sound_fresh hg hs
  exact ⟨s, hs, hsound.withinBurst (by omega)⟩

/-- Two hosts whose clocks keep pace: a burst, a denied request, the refill of three
seconds, and after the keys were dropped a full bucket that the refill had earned. -/
theorem within_burst_of_paced_hosts :
    ∃ s, (executions 2 10).run fresh
      [⟨100, 10, 0⟩, ⟨100, 1, 200⟩, ⟨103, 6, 2800⟩, ⟨114, 10, 11000⟩] = some s ∧
      WithinBurst 2 10 s :=
  within_burst_of_in_step 2 10 (by decide) (by decide) (by decide) _ (by decide)

/-- Two hosts ten seconds apart: each denied request of the one behind turns the refresh time back,
and the one ahead is refilled again. The five executions grant thirty where twenty are due. -/
theorem skewed_hosts_exceed_burst :
    ∃ s, (executions 1 10).run fresh
      [⟨10, 10, 0⟩, ⟨0, 1, 0⟩, ⟨10, 10, 0⟩, ⟨0, 1, 0⟩, ⟨10, 10, 0⟩] = some s ∧
      Draw.total s.draws = 30 ∧ ¬ WithinBurst 1 10 s := by
  refine ⟨_, rfl, by decide, fun h => ?_⟩
  have hbound := h [] _ [] 0 10 (List.append_nil _).symm (by decide) (by decide)
  exact absurd hbound (by decide)

end Shared

end Stardust.Limit
