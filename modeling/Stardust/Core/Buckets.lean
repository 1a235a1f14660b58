import Stardust.Core.RollingTrace

/-!
# Rings as programs keep them

A program keeps the number of buckets next to them and counts modulo that number. An advance is
absent where the division by the length of a bucket panics. A ring that is kept in this way works
as a ring as long as the number is right.
-/

namespace Stardust.Core

/-- A ring of buckets with its size. -/
structure Buckets (M : Type*) where
  /-- The buckets in the order of the ring. -/
  buckets : List M
  /-- The number of buckets. -/
  size : Nat
  /-- The current bucket. -/
  offset : Nat
  /-- The clock reading of the last advance. -/
  lastTime : Int
  /-- The length of one bucket. -/
  interval : Int
  deriving DecidableEq, Repr

namespace Buckets

variable {M : Type*}

/-- The ring. -/
def ring (b : Buckets M) : Rolling M := ⟨b.buckets, b.offset, b.lastTime, b.interval⟩

section Operations

variable [Zero M]

/-- Empty buckets, current from `now` on. -/
def new (size : Nat) (interval now : Int) : Buckets M :=
  ⟨List.replicate size 0, size, 0, now, interval⟩

/-- Step through `elapsed` buckets and empty each of them. -/
def clearNext : Nat → Buckets M → Buckets M
  | 0, b => b
  | elapsed + 1, b =>
    let offset := (b.offset + 1) % b.size
    clearNext elapsed { b with offset := offset, buckets := b.buckets.set offset 0 }

/-- Empty the buckets that passed since the last advance, at most all of them. -/
def advance (b : Buckets M) (now : Int) : Option (Buckets M) :=
  if b.interval = 0 then none
  else
    let elapsed := (now - b.lastTime).tdiv b.interval
    if elapsed ≤ 0 then some b
    else
      let elapsed := if elapsed > b.size then (b.size : Int) else elapsed
      some { b.clearNext elapsed.toNat with lastTime := now }

end Operations

/-- The size is the number of buckets, one of which is current. -/
structure Fits (b : Buckets M) : Prop where
  /-- The size is the number of buckets. -/
  size_eq : b.size = b.ring.size
  /-- There is a current bucket. -/
  lawful : b.ring.Lawful

/-- Buckets also have a length, so that no call panics. -/
structure Sound (b : Buckets M) : Prop extends Fits b where
  /-- The divisor is not zero. -/
  interval_ne : b.interval ≠ 0

variable {b : Buckets M}

section Advance

variable [Zero M]

/-- New buckets fit, whatever their length is. -/
theorem Fits.new {size : Nat} (hsize : 0 < size) (interval now : Int) :
    (Buckets.new size interval now : Buckets M).Fits := by
  have hlength : (Buckets.new size interval now : Buckets M).ring.size = size :=
    List.length_replicate
  refine ⟨hlength.symm, ⟨?_⟩⟩
  rw [hlength]
  exact hsize

/-- New buckets of a positive length are sound. -/
theorem Sound.new {size : Nat} {interval : Int} (hsize : 0 < size) (hinterval : 0 < interval)
    (now : Int) : (Buckets.new size interval now : Buckets M).Sound :=
  ⟨.new hsize interval now, hinterval.ne'⟩

/-- The loop of an advance is that of the ring. -/
theorem clearNext_ring (elapsed : Nat) (hsize : b.size = b.ring.size) :
    (b.clearNext elapsed).ring = b.ring.clearNext elapsed ∧
      (b.clearNext elapsed).size = (b.clearNext elapsed).ring.size := by
  induction elapsed generalizing b with
  | zero => exact ⟨rfl, hsize⟩
  | succ elapsed ih =>
    have hclear : ring { b with
        offset := (b.offset + 1) % b.size
        buckets := b.buckets.set ((b.offset + 1) % b.size) 0 } = b.ring.clear := by
      rw [hsize]
      rfl
    have hnext := @ih { b with
      offset := (b.offset + 1) % b.size
      buckets := b.buckets.set ((b.offset + 1) % b.size) 0 }
    rw [hclear, Rolling.size_clear] at hnext
    exact hnext hsize

/-- An advance panics on buckets without a length. -/
theorem advance_eq_none (hzero : b.interval = 0) (now : Int) : b.advance now = none := if_pos hzero

/-- An advance returns unless buckets have no length, and is that of the ring. -/
theorem advance_ring (hsize : b.size = b.ring.size) (hinterval : b.interval ≠ 0) (now : Int) :
    ∃ b', b.advance now = some b' ∧ b'.size = b'.ring.size ∧ b'.ring = b.ring.advance now := by
  unfold Buckets.advance Rolling.advance
  rw [if_neg hinterval]
  by_cases helapsed : (now - b.lastTime).tdiv b.interval ≤ 0
  · exact ⟨b, if_pos helapsed, hsize, (if_pos helapsed).symm⟩
  · have hmoves : (if (now - b.lastTime).tdiv b.interval > b.size then (b.size : Int)
        else (now - b.lastTime).tdiv b.interval).toNat = b.ring.moves now := by
      rw [hsize]
      exact Rolling.toNat_cap b.ring now
    obtain ⟨hring, hsize'⟩ := clearNext_ring (b.ring.moves now) hsize
    dsimp only
    rw [if_neg helapsed, hmoves]
    refine ⟨_, rfl, hsize', ?_⟩
    refine Eq.trans ?_ (if_neg helapsed).symm
    rw [← hring]
    rfl

/-- An advance that returns is that of the ring. -/
theorem ring_of_advance {b' : Buckets M} {now : Int} (hsize : b.size = b.ring.size)
    (h : b.advance now = some b') : b'.size = b'.ring.size ∧ b'.ring = b.ring.advance now := by
  by_cases hinterval : b.interval = 0
  · rw [advance_eq_none hinterval] at h
    cases h
  · obtain ⟨advanced, hadvance, hsize', hring⟩ := advance_ring hsize hinterval now
    obtain rfl : b' = advanced := Option.some.inj (h.symm.trans hadvance)
    exact ⟨hsize', hring⟩

/-- An advance of sound buckets returns, and is that of the ring. -/
theorem Sound.advance (h : b.Sound) (now : Int) :
    ∃ b', b.advance now = some b' ∧ b'.Sound ∧ b'.ring = b.ring.advance now := by
  obtain ⟨b', hadvance, hsize, hring⟩ := advance_ring h.size_eq h.interval_ne now
  have hlength : b'.interval = b.interval :=
    (congrArg Rolling.interval hring).trans (Rolling.interval_advance b.ring now)
  refine ⟨b', hadvance, ⟨⟨hsize, ?_⟩, ?_⟩, hring⟩
  · rw [hring]
    exact h.lawful.advance now
  · rw [hlength]
    exact h.interval_ne

end Advance

/-- Buckets over which an advance returns have a length. -/
theorem Fits.sound_of_advance [Zero M] {b' : Buckets M} {now : Int} (h : b.Fits)
    (hadvance : b.advance now = some b') : b.Sound := by
  refine ⟨h, fun hzero => ?_⟩
  rw [advance_eq_none hzero] at hadvance
  cases hadvance

/-- Adding to the current bucket moves nothing. -/
theorem Fits.addCurrent [Add M] (h : b.Fits) (m : M) :
    Fits { b with buckets := b.buckets.modify b.offset (· + m) } :=
  ⟨h.size_eq.trans (Rolling.size_addCurrent b.ring m).symm, h.lawful.addCurrent m⟩

/-- Adding to the current bucket keeps the length of the buckets. -/
theorem Sound.addCurrent [Add M] (h : b.Sound) (m : M) :
    Sound { b with buckets := b.buckets.modify b.offset (· + m) } :=
  ⟨h.toFits.addCurrent m, h.interval_ne⟩

end Buckets

end Stardust.Core
