import Mathlib.Algebra.Order.BigOperators.Group.Multiset
import Mathlib.Data.Finset.Max
import Stardust.Load.Shedder

/-!
# The response time of the limit

The limit of concurrency uses the mean of the buckets of response times, and a bucket holds the sum
of the response times of its passes. The response times themselves, kept in a ring that moves with
the counter, say what the mean would have to lie between. It does as long as the sums make no
difference, in particular while no bucket holds two passes.
-/

namespace Stardust.Load

open Stardust.Core Multiset

/-- The response time that the limit is computed with. -/
def AdaptiveShedder.minRt (as : AdaptiveShedder) (now : Int) : Option ℚ :=
  (as.rtCounter.avg now).map fun (avg, _) => max avg 1

namespace RollingCounter

variable {rc rc' : RollingCounter} {val avg : ℚ} {now : Int}

/-- Adding an amount advances the ring and adds to its current bucket. -/
theorem ring_of_add (hsize : rc.size = rc.ring.size) (h : rc.add val now = some rc') :
    rc'.size = rc'.ring.size ∧ rc'.ring = (rc.ring.advance now).addCurrent val := by
  obtain ⟨rc'', hadvance, hadd⟩ := Option.bind_eq_some_iff.mp h
  obtain ⟨-, ⟨⟩⟩ := Option.ite_none_right_eq_some.mp hadd
  obtain ⟨hsize', hring⟩ := Buckets.ring_of_advance hsize hadvance
  refine ⟨hsize'.trans ?_, congrArg (Rolling.addCurrent · val) hring⟩
  exact (Rolling.size_addCurrent rc''.ring val).symm

/-- Reading the mean advances the ring. -/
theorem ring_of_avg (hsize : rc.size = rc.ring.size) (h : rc.avg now = some (avg, rc')) :
    rc'.size = rc'.ring.size ∧ rc'.ring = rc.ring.advance now ∧
      avg = if (rc'.buckets.filter (0 < ·)).length = 0 then 0
        else (rc'.buckets.filter (0 < ·)).sum / (rc'.buckets.filter (0 < ·)).length := by
  obtain ⟨rc'', hadvance, hmean⟩ := Option.map_eq_some_iff.mp h
  obtain ⟨havg, rfl⟩ := Prod.mk.inj hmean
  obtain ⟨hsize', hring⟩ := Buckets.ring_of_advance hsize hadvance
  exact ⟨hsize', hring, havg.symm⟩

end RollingCounter

/-! ### Groups of amounts -/

/-- Amounts that are all at least one. -/
def atLeastOne : AddSubmonoid (Multiset ℚ) where
  carrier := {group | ∀ x ∈ group, 1 ≤ x}
  zero_mem' := fun _ h => absurd h (notMem_zero _)
  add_mem' := by
    intro a b ha hb x hx
    rcases mem_add.mp hx with hx | hx
    · exact ha x hx
    · exact hb x hx

private theorem mem_atLeastOne {group : Multiset ℚ} : group ∈ atLeastOne ↔ ∀ x ∈ group, 1 ≤ x :=
  Iff.rfl

/-- The number of groups that are not empty. -/
def occupied (groups : List (Multiset ℚ)) : ℕ := (groups.filter (· ≠ 0)).length

section Groups

variable {groups : List (Multiset ℚ)} {lo : ℚ}

/-- A group of amounts that are at least one is empty when its sum is not positive. -/
theorem sum_pos_iff {group : Multiset ℚ} (h : group ∈ atLeastOne) : 0 < group.sum ↔ group ≠ 0 := by
  constructor
  · rintro hpos rfl
    exact lt_irrefl 0 hpos
  · intro hne
    have hcard : card group • (1 : ℚ) ≤ group.sum :=
      card_nsmul_le_sum (mem_atLeastOne.mp h)
    have hpos : (0 : ℚ) < card group := by
      exact_mod_cast card_pos.mpr hne
    rw [nsmul_eq_mul, mul_one] at hcard
    exact hpos.trans_le hcard

/-- The positive sums are those of the groups that are not empty. -/
theorem filter_sums_eq (h : ∀ group ∈ groups, group ∈ atLeastOne) :
    (groups.map sum).filter (0 < ·) = (groups.filter (· ≠ 0)).map sum := by
  rw [List.filter_map]
  congr 1
  refine List.filter_congr fun group hgroup => ?_
  simp only [Function.comp_apply, sum_pos_iff (h group hgroup)]

/-- Empty groups add nothing. -/
theorem sum_filter_sums (groups : List (Multiset ℚ)) :
    ((groups.filter (· ≠ 0)).map sum).sum = groups.sum.sum := by
  induction groups with
  | nil => rfl
  | cons group groups ih =>
    by_cases hempty : group = 0
    · simpa [hempty] using ih
    · simpa [hempty] using ih

private theorem occupied_cons (group : Multiset ℚ) (groups : List (Multiset ℚ)) :
    occupied (group :: groups) = (if group = 0 then 0 else 1) + occupied groups := by
  unfold occupied
  by_cases hempty : group = 0 <;> simp [hempty, Nat.add_comm]

/-- A group that is not empty has a least amount. -/
theorem exists_isLeast {group : Multiset ℚ} {x : ℚ} (hx : x ∈ group) :
    ∃ lo, IsLeast {x | x ∈ group} lo := by
  have hne : group.toFinset.Nonempty := ⟨x, mem_toFinset.mpr hx⟩
  obtain ⟨hmem, hle⟩ := group.toFinset.isLeast_min' hne
  exact ⟨_, mem_toFinset.mp hmem, fun y hy => hle (mem_toFinset.mpr hy)⟩

/-- There are at least as many amounts as groups that are not empty. -/
theorem occupied_le_card (groups : List (Multiset ℚ)) : occupied groups ≤ groups.sum.card := by
  induction groups with
  | nil => exact le_rfl
  | cons group groups ih =>
    rw [occupied_cons, List.sum_cons, card_add]
    refine Nat.add_le_add ?_ ih
    split
    case isTrue => exact Nat.zero_le _
    case isFalse hne => exact card_pos.mpr hne

/-- There are as many where no group has two. -/
theorem card_le_occupied (h : ∀ group ∈ groups, group.card ≤ 1) :
    groups.sum.card ≤ occupied groups := by
  induction groups with
  | nil => exact le_rfl
  | cons group groups ih =>
    rw [occupied_cons, List.sum_cons, card_add]
    refine Nat.add_le_add ?_ (ih fun group hgroup => h group (List.mem_cons_of_mem _ hgroup))
    split
    case isTrue hempty => rw [hempty, card_zero]
    case isFalse => exact h group List.mem_cons_self

/-- The mean of the groups' sums lies between the least amount and a bound exactly when the sum of
all amounts is at most the bound for each group that is not empty. -/
theorem mean_between_iff (h : ∀ group ∈ groups, group ∈ atLeastOne)
    (hlo : IsLeast {x | x ∈ groups.sum} lo) (hi : ℚ) {avg : ℚ}
    (havg : avg = if ((groups.map sum).filter (0 < ·)).length = 0 then 0
      else ((groups.map sum).filter (0 < ·)).sum /
        ((groups.map sum).filter (0 < ·)).length) :
    (lo ≤ max avg 1 ∧ max avg 1 ≤ hi) ↔ groups.sum.sum ≤ hi * occupied groups := by
  have hall : groups.sum ∈ atLeastOne := list_sum_mem h
  have hone : 1 ≤ lo := mem_atLeastOne.mp hall lo hlo.1
  have hcard : groups.sum.card • lo ≤ groups.sum.sum :=
    card_nsmul_le_sum fun x hx => hlo.2 hx
  have hle : (occupied groups : ℚ) ≤ groups.sum.card := by
    exact_mod_cast occupied_le_card groups
  have hpos : 0 < occupied groups := by
    refine Nat.pos_of_ne_zero fun hzero => ?_
    have hnone : groups.filter (· ≠ 0) = [] := List.length_eq_zero_iff.mp hzero
    have hsum := sum_filter_sums groups
    rw [hnone] at hsum
    have hne : groups.sum ≠ 0 := by
      intro hempty
      have hmem : lo ∈ groups.sum := hlo.1
      rw [hempty] at hmem
      exact notMem_zero lo hmem
    exact ((sum_pos_iff hall).mpr hne).ne hsum
  have hpos' : (0 : ℚ) < occupied groups := by exact_mod_cast hpos
  rw [filter_sums_eq h, List.length_map, sum_filter_sums] at havg
  have hmean : avg = groups.sum.sum / occupied groups := havg.trans (if_neg hpos.ne')
  have hleast : lo ≤ avg := by
    rw [hmean, le_div_iff₀ hpos']
    rw [nsmul_eq_mul] at hcard
    calc lo * occupied groups ≤ lo * groups.sum.card := by gcongr
      _ = groups.sum.card * lo := mul_comm ..
      _ ≤ groups.sum.sum := hcard
  rw [max_eq_left (hone.trans hleast), and_iff_right hleast, hmean, div_le_iff₀ hpos']

end Groups

/-! ### Passes through a shedder -/

/-- A shedder, with the response times of the passes in its window. -/
structure Watched where
  shedder : AdaptiveShedder
  /-- The response times in milliseconds by bucket. -/
  held : Rolling (Multiset ℚ)

/-- What moves the window of response times. -/
inductive Watch where
  /-- `Pass`, on a promise made at `start`, with its three clock readings. -/
  | pass (start now passNow rtNow : Int)
  /-- A computation of the limit. -/
  | look (r : Readings)

/-- The response time of a pass in whole milliseconds. -/
def responseTime (start now : Int) : ℚ := ((now - start).tdiv (10 ^ 6) : Int)

namespace Watched

/-- A shedder without passes. -/
def start (as : AdaptiveShedder) : Watched :=
  ⟨as, ⟨List.replicate as.rtCounter.size 0, as.rtCounter.offset, as.rtCounter.lastTime,
    as.rtCounter.interval⟩⟩

/-- One call, with the times that are held. -/
def step (s : Watched) : Watch → Option Watched
  | .pass start now passNow rtNow =>
    (s.shedder.release.recordPass start now passNow rtNow).map fun as =>
      ⟨as, (s.held.advance rtNow).addCurrent {responseTime start now}⟩
  | .look r => (s.shedder.maxFlight r).map fun (_, as) => ⟨as, s.held.advance r.rtNow⟩

/-- The passes through a new shedder. -/
def watching (opts : List ShedderOption) : System Watched Watch where
  init s := ∃ now cpuSeconds as, newAdaptiveShedder opts now cpuSeconds = some as ∧ s = start as
  step := step

/-- The response times by bucket that a read of the window finds. -/
def found (s : Watched) (now : Int) : List (Multiset ℚ) := (s.held.advance now).buckets

/-- The response times of the passes that are still in the window. -/
def stillHeld (s : Watched) (now : Int) : Multiset ℚ := (s.found now).sum

/-- A response time lies between the least and the greatest of those still in the window. -/
def Between (s : Watched) (now : Int) (rt : ℚ) : Prop :=
  ∀ lo hi, IsLeast {x | x ∈ s.stillHeld now} lo → IsGreatest {x | x ∈ s.stillHeld now} hi →
    lo ≤ rt ∧ rt ≤ hi

/-- The response times still in the window together are at most the greatest of them for each
bucket that holds a pass. -/
def Spread (s : Watched) (now : Int) : Prop :=
  ∀ hi, IsGreatest {x | x ∈ s.stillHeld now} hi →
    (s.stillHeld now).sum ≤ hi * occupied (s.found now)

/-- The counter holds the sums of the response times, which are all at least one. -/
structure Sums (s : Watched) : Prop where
  /-- The counter has the buckets it was made with. -/
  size_eq : s.shedder.rtCounter.size = s.shedder.rtCounter.ring.size
  /-- Each bucket is the sum of its response times. -/
  sums : s.shedder.rtCounter.ring = s.held.map sum
  /-- Every response time is a millisecond or more. -/
  within : s.held.Within atLeastOne

variable {opts : List ShedderOption} {s s' : Watched} {now : Int} {as : AdaptiveShedder}

/-- The pass took a millisecond or more. -/
def Measured : Watch → Prop
  | .pass start now _ _ => 1 ≤ responseTime start now
  | .look _ => True

instance : (e : Watch) → Decidable (Measured e)
  | .pass start now _ _ => inferInstanceAs (Decidable (1 ≤ responseTime start now))
  | .look _ => isTrue trivial

/-- The window of a new shedder is empty. -/
theorem sums_start {created : Int} {cpuSeconds : ℚ}
    (h : newAdaptiveShedder opts created cpuSeconds = some as) : (start as).Sums := by
  obtain ⟨-, ⟨⟩⟩ := Option.ite_none_left_eq_some.mp h
  refine ⟨List.length_replicate.symm, ?_, fun group hgroup => ?_⟩
  · simp [start, Buckets.ring, newRollingCounter, Buckets.new, Rolling.map]
  · rw [List.eq_of_mem_replicate hgroup]
    exact atLeastOne.zero_mem

/-- An advance of the window drops whole buckets. -/
theorem Sums.advance (h : s.Sums) {ring : Rolling ℚ}
    (hring : ring = s.shedder.rtCounter.ring.advance now) :
    ring = (s.held.advance now).map sum := by
  rw [hring, h.sums]
  exact (Rolling.map_advance sum_zero s.held now).symm

/-- A pass adds its response time to the current bucket, and a read of the window keeps it. -/
theorem Sums.step {e : Watch} (h : s.Sums) (hmeasured : Measured e) (hstep : s.step e = some s') :
    s'.Sums := by
  cases e with
  | pass start now passNow rtNow =>
    obtain ⟨as, hrecord, rfl⟩ := Option.map_eq_some_iff.mp hstep
    obtain ⟨passCounter, -, hmap⟩ := Option.bind_eq_some_iff.mp hrecord
    obtain ⟨rtCounter, hadd, rfl⟩ := Option.map_eq_some_iff.mp hmap
    obtain ⟨hsize, hring⟩ := RollingCounter.ring_of_add h.size_eq hadd
    refine ⟨hsize, ?_, (h.within.advance rtNow).addCurrent ?_⟩
    · refine Eq.trans ?_ (Rolling.map_addCurrent sum_add _ _).symm
      rw [← h.advance rfl, sum_singleton]
      exact hring
    · intro x hx
      rw [mem_singleton.mp hx]
      exact hmeasured
  | look r =>
    obtain ⟨⟨limit, as⟩, hlimit, rfl⟩ := Option.map_eq_some_iff.mp hstep
    obtain ⟨⟨maxPass, passCounter⟩, -, hrest⟩ := Option.bind_eq_some_iff.mp hlimit
    obtain ⟨⟨avg, rtCounter⟩, havg, ⟨⟩⟩ := Option.map_eq_some_iff.mp hrest
    obtain ⟨hsize, hring, -⟩ := RollingCounter.ring_of_avg h.size_eq havg
    exact ⟨hsize, h.advance hring, h.within.advance r.rtNow⟩

/-- The window holds the sums of the response times in every run. -/
theorem sums_of_run {created : Int} {cpuSeconds : ℚ} {events : List Watch}
    (hnew : newAdaptiveShedder opts created cpuSeconds = some as)
    (hmeasured : ∀ e ∈ events, Measured e)
    (hrun : (watching opts).run (start as) events = some s) : s.Sums :=
  (watching opts).run_guarded (fun _ _ _ h hg hstep => h.step hg hstep) (sums_start hnew)
    ((watching opts).guarded_of_forall fun e he _ => hmeasured e he) hrun

/-- The response time of the limit by the response times in the window. -/
theorem Sums.between_iff_spread (h : s.Sums) {rt : ℚ} (hrt : s.shedder.minRt now = some rt) :
    s.Between now rt ↔ s.Spread now := by
  obtain ⟨⟨avg, rtCounter⟩, havg, rfl⟩ := Option.map_eq_some_iff.mp hrt
  obtain ⟨-, hring, hmean⟩ := RollingCounter.ring_of_avg h.size_eq havg
  have hbuckets : rtCounter.buckets = (s.found now).map sum :=
    congrArg Rolling.buckets (h.advance hring)
  rw [hbuckets] at hmean
  have hbound := fun lo (hlo : IsLeast {x | x ∈ s.stillHeld now} lo) hi =>
    mean_between_iff (h.within.advance now) hlo hi hmean
  constructor
  · intro hbetween hi hhi
    obtain ⟨lo, hlo⟩ := exists_isLeast hhi.1
    exact (hbound lo hlo hi).mp (hbetween lo hi hlo hhi)
  · intro hspread lo hi hlo hhi
    exact (hbound lo hlo hi).mpr (hspread hi hhi)

/-- A window without two passes in one bucket is spread. -/
theorem spread_of_single (h : ∀ group ∈ s.found now, group.card ≤ 1) : s.Spread now := by
  intro hi hhi
  have hcard : (s.stillHeld now).card = occupied (s.found now) :=
    (card_le_occupied h).antisymm (occupied_le_card _)
  calc (s.stillHeld now).sum ≤ (s.stillHeld now).card • hi :=
        sum_le_card_nsmul _ _ fun x hx => hhi.2 hx
    _ = hi * occupied (s.found now) := by rw [hcard, nsmul_eq_mul, mul_comm]

end Watched

/-- After passes of a millisecond or more, the response time that the limit is computed with lies
between the least and the greatest still in the window exactly when all of them together are at
most the greatest for each bucket that holds a pass. -/
theorem response_time_between_iff (opts : List ShedderOption) (created : Int) (cpuSeconds : ℚ)
    (as : AdaptiveShedder) (hnew : newAdaptiveShedder opts created cpuSeconds = some as)
    (events : List Watch) (hmeasured : ∀ e ∈ events, Watched.Measured e) (s : Watched)
    (hrun : (Watched.watching opts).run (Watched.start as) events = some s) (now : Int) (rt : ℚ)
    (hrt : s.shedder.minRt now = some rt) : s.Between now rt ↔ s.Spread now :=
  (Watched.sums_of_run hnew hmeasured hrun).between_iff_spread hrt

/-- One pass of ten milliseconds and one of twenty, in two buckets of a default shedder. -/
theorem response_time_between_in_two_buckets :
    ∃ as s, newAdaptiveShedder [] 0 0 = some as ∧
      (Watched.watching []).run (Watched.start as)
        [.pass 0 10000000 10000000 10000000, .pass 100000000 120000000 120000000 120000000] =
          some s ∧
      s.stillHeld 120000000 = {10, 20} ∧ s.shedder.minRt 120000000 = some 15 ∧
      s.Between 120000000 15 := by
  have hruns : ((newAdaptiveShedder [] 0 0).bind fun as =>
      ((Watched.watching []).run (Watched.start as)
        [.pass 0 10000000 10000000 10000000, .pass 100000000 120000000 120000000 120000000]).bind
      fun s => if s.stillHeld 120000000 = {10, 20} ∧ s.shedder.minRt 120000000 = some 15 ∧
        ∀ group ∈ s.found 120000000, group.card ≤ 1 then some (as, s) else none).isSome := by
    decide +kernel
  obtain ⟨⟨as, s⟩, hruns⟩ := Option.isSome_iff_exists.mp hruns
  obtain ⟨as, hnew, hruns⟩ := Option.bind_eq_some_iff.mp hruns
  obtain ⟨s, hrun, hruns⟩ := Option.bind_eq_some_iff.mp hruns
  obtain ⟨⟨hheld, hrt, hsingle⟩, ⟨⟩⟩ := Option.ite_none_right_eq_some.mp hruns
  refine ⟨_, _, hnew, hrun, hheld, hrt, ?_⟩
  exact (response_time_between_iff [] 0 0 _ hnew _ (by decide +kernel) _ hrun _ _ hrt).mpr
    (Watched.spread_of_single hsingle)

/-- Two passes of ten milliseconds in one bucket of a default shedder: the limit is computed with
twenty. -/
theorem response_time_twice_in_one_bucket :
    ∃ as s, newAdaptiveShedder [] 0 0 = some as ∧
      (Watched.watching []).run (Watched.start as)
        [.pass 0 10000000 10000000 10000000, .pass 0 10000000 10000000 10000000] = some s ∧
      s.stillHeld 10000000 = {10, 10} ∧ s.shedder.minRt 10000000 = some 20 ∧
      ¬ s.Between 10000000 20 := by
  have hruns : ((newAdaptiveShedder [] 0 0).bind fun as =>
      ((Watched.watching []).run (Watched.start as)
        [.pass 0 10000000 10000000 10000000, .pass 0 10000000 10000000 10000000]).bind
      fun s => if s.stillHeld 10000000 = {10, 10} ∧ s.shedder.minRt 10000000 = some 20
        then some (as, s) else none).isSome := by
    decide +kernel
  obtain ⟨⟨as, s⟩, hruns⟩ := Option.isSome_iff_exists.mp hruns
  obtain ⟨as, hnew, hruns⟩ := Option.bind_eq_some_iff.mp hruns
  obtain ⟨s, hrun, hruns⟩ := Option.bind_eq_some_iff.mp hruns
  obtain ⟨⟨hheld, hrt⟩, ⟨⟩⟩ := Option.ite_none_right_eq_some.mp hruns
  refine ⟨_, _, hnew, hrun, hheld, hrt, fun hbetween => ?_⟩
  have hten : ∀ x, x ∈ s.stillHeld 10000000 ↔ x = 10 := by
    intro x
    rw [hheld]
    simp
  have hbound := hbetween 10 10 ⟨(hten 10).mpr rfl, fun x hx => ((hten x).mp hx).ge⟩
    ⟨(hten 10).mpr rfl, fun x hx => ((hten x).mp hx).le⟩
  exact absurd hbound.2 (by norm_num)

end Stardust.Load
