import Mathlib.Algebra.BigOperators.Group.Multiset.Basic
import Mathlib.Algebra.Group.Submonoid.BigOperators
import Mathlib.Algebra.Order.Ring.Int
import Mathlib.Tactic.Linarith

/-!
# Rolling buckets

A ring of buckets over time: the ring moves on by one bucket for each whole interval that has
passed since it last moved, empties each bucket it moves to, and forgets the part of an interval
that is left over. The buckets in the order of their age are a queue that is extended in front
and cut at its length.
-/

namespace Stardust.Core

/-- A ring of buckets. -/
structure Rolling (M : Type*) where
  /-- The buckets in the order of the ring. -/
  buckets : List M
  /-- The current bucket. -/
  offset : Nat
  /-- The clock reading of the last move. -/
  lastTime : Int
  /-- The length of one bucket. -/
  interval : Int
  deriving DecidableEq

namespace Rolling

variable {M N : Type*}

/-- The number of buckets. -/
def size (r : Rolling M) : Nat := r.buckets.length

/-- Move to the next bucket and empty it. -/
def clear [Zero M] (r : Rolling M) : Rolling M :=
  { r with
    offset := (r.offset + 1) % r.size
    buckets := r.buckets.set ((r.offset + 1) % r.size) 0 }

/-- Step through a number of buckets and empty each of them. -/
def clearNext [Zero M] : Nat → Rolling M → Rolling M
  | 0, r => r
  | k + 1, r => clearNext k r.clear

/-- The whole intervals since the last move. -/
def elapsed (r : Rolling M) (now : Int) : Int := (now - r.lastTime).tdiv r.interval

/-- The buckets that an advance empties, at most all of them. -/
def moves (r : Rolling M) (now : Int) : Nat := (min (r.elapsed now) r.size).toNat

/-- Empty the buckets of the intervals that have passed. -/
def advance [Zero M] (r : Rolling M) (now : Int) : Rolling M :=
  if r.elapsed now ≤ 0 then r else { r.clearNext (r.moves now) with lastTime := now }

/-- Add to the current bucket. -/
def addCurrent [Add M] (r : Rolling M) (m : M) : Rolling M :=
  { r with buckets := r.buckets.modify r.offset (· + m) }

/-- The same ring with other contents. -/
def map (f : M → N) (r : Rolling M) : Rolling N :=
  ⟨r.buckets.map f, r.offset, r.lastTime, r.interval⟩

/-- The buckets from the current one to the oldest. -/
def byAge (r : Rolling M) : List M :=
  (r.buckets.take (r.offset + 1)).reverse ++ (r.buckets.drop (r.offset + 1)).reverse

/-- A call drops no part of an interval: it does not move the ring, moves it by the whole time
since the last move, or empties all of it. -/
def WholeIntervals (r : Rolling M) (now : Int) : Prop :=
  now - r.lastTime < r.interval ∨ r.interval ∣ now - r.lastTime ∨
    r.size * r.interval ≤ now - r.lastTime

instance (r : Rolling M) (now : Int) : Decidable (r.WholeIntervals now) :=
  inferInstanceAs (Decidable (_ ∨ _ ∨ _))

/-- One of the buckets is current. -/
structure Lawful (r : Rolling M) : Prop where
  /-- The current bucket exists. -/
  current : r.offset < r.size

/-- The ring has buckets of a positive length, one of which is current. -/
structure Timed (r : Rolling M) : Prop extends Lawful r where
  /-- Buckets have a length. -/
  interval_pos : 0 < r.interval

variable {r : Rolling M} {k : Nat} {now : Int} {m : M}

/-- The buckets on both sides of the current one. -/
theorem Lawful.split (h : r.Lawful) :
    ∃ before current after, r.buckets = before ++ current :: after ∧ r.offset = before.length := by
  refine ⟨r.buckets.take r.offset, r.buckets.get ⟨r.offset, h.current⟩,
    r.buckets.drop (r.offset + 1), ?_, ?_⟩
  · simp
  · have hcurrent := h.current
    simp only [size] at hcurrent
    rw [List.length_take, min_eq_left hcurrent.le]

/-- The buckets by age around the current one. -/
theorem byAge_append (before after : List M) (current : M) (lastTime interval : Int) :
    byAge ⟨before ++ current :: after, before.length, lastTime, interval⟩ =
      current :: (before.reverse ++ after.reverse) := by
  simp only [byAge]
  rw [List.take_length_add_append, List.drop_length_add_append]
  simp

/-- Every bucket has an age. -/
theorem length_byAge (r : Rolling M) : r.byAge.length = r.size := by
  simp only [byAge, List.length_append, List.length_reverse, List.length_take, List.length_drop,
    size]
  omega

/-- The order of age is a rearrangement. -/
theorem byAge_perm (r : Rolling M) : r.byAge.Perm r.buckets := by
  unfold byAge
  refine ((List.reverse_perm _).append (List.reverse_perm _)).trans ?_
  rw [List.take_append_drop]

/-- The bound on the moves, written as a comparison. -/
theorem toNat_cap (r : Rolling M) (now : Int) :
    (if r.elapsed now > r.size then (r.size : Int) else r.elapsed now).toNat = r.moves now := by
  unfold moves
  split <;> omega

/-- The whole intervals counted lie within the time that has passed. -/
theorem Timed.elapsed_mul_le (h : r.Timed) (hnow : r.lastTime ≤ now) :
    r.elapsed now * r.interval ≤ now - r.lastTime := by
  unfold elapsed
  rw [Int.tdiv_eq_ediv_of_nonneg (by omega), mul_comm]
  exact Int.mul_ediv_self_le h.interval_pos.ne'

/-- Less than one more interval has passed. -/
theorem Timed.lt_elapsed_mul (h : r.Timed) (hnow : r.lastTime ≤ now) :
    now - r.lastTime < r.elapsed now * r.interval + r.interval := by
  unfold elapsed
  rw [Int.tdiv_eq_ediv_of_nonneg (by omega), mul_comm]
  exact Int.lt_mul_ediv_self_add h.interval_pos

section Clear

variable [Zero M]

@[simp]
theorem size_clear (r : Rolling M) : r.clear.size = r.size := by
  simp [clear, size]

private theorem Lawful.clear (h : r.Lawful) : r.clear.Lawful := by
  refine ⟨?_⟩
  rw [size_clear]
  exact Nat.mod_lt _ (Nat.zero_lt_of_lt h.current)

/-- Moving to the next bucket puts an empty one in front and drops the oldest. -/
theorem Lawful.byAge_clear (h : r.Lawful) : r.clear.byAge = 0 :: r.byAge.dropLast := by
  obtain ⟨before, current, after, hbuckets, hoffset⟩ := h.split
  obtain ⟨buckets, offset, lastTime, interval⟩ := r
  dsimp only at hbuckets hoffset
  subst hbuckets hoffset
  rw [byAge_append]
  simp only [Rolling.clear, size, List.length_append, List.length_cons]
  cases after with
  | cons oldest after =>
    have hnext : (before.length + 1) % (before.length + ((oldest :: after).length + 1)) =
        (before ++ [current]).length := by
      rw [Nat.mod_eq_of_lt] <;> simp
    have hset : (before ++ current :: oldest :: after).set (before ++ [current]).length 0 =
        (before ++ [current]) ++ 0 :: after := by
      simp
    rw [hnext, hset, byAge_append]
    have hage : current :: (before.reverse ++ (oldest :: after).reverse) =
        (current :: (before.reverse ++ after.reverse)) ++ [oldest] := by
      simp
    rw [hage, List.dropLast_concat]
    simp
  | nil =>
    have hnext : (before.length + 1) % (before.length + (([] : List M).length + 1)) = 0 := by
      simp
    rw [hnext]
    cases before with
    | nil => rfl
    | cons oldest before =>
      have hage : current :: ((oldest :: before).reverse ++ ([] : List M).reverse) =
          (current :: before.reverse) ++ [oldest] := by
        simp
      rw [hage, List.dropLast_concat]
      refine (byAge_append [] (before ++ [current]) 0 lastTime interval).trans ?_
      simp

@[simp]
private theorem size_clearNext (k : Nat) (r : Rolling M) : (r.clearNext k).size = r.size := by
  induction k generalizing r with
  | zero => rfl
  | succ k ih => rw [clearNext, ih, size_clear]

@[simp]
private theorem interval_clearNext (k : Nat) (r : Rolling M) :
    (r.clearNext k).interval = r.interval := by
  induction k generalizing r with
  | zero => rfl
  | succ k ih => rw [clearNext, ih, clear]

private theorem Lawful.clearNext (h : r.Lawful) (k : Nat) : (r.clearNext k).Lawful := by
  induction k generalizing r with
  | zero => exact h
  | succ k ih => exact ih h.clear

/-- Moving on puts empty buckets in front and drops as many of the oldest. -/
theorem Lawful.byAge_clearNext (h : r.Lawful) (k : Nat) :
    (r.clearNext k).byAge = (List.replicate k 0 ++ r.byAge).take r.size := by
  induction k generalizing r with
  | zero => rw [Rolling.clearNext, List.replicate_zero, List.nil_append, ← length_byAge,
      List.take_length]
  | succ k ih =>
    have hqueue : 0 :: r.byAge.dropLast = (0 :: r.byAge).take r.size := by
      have hpos : 0 < r.size := Nat.zero_lt_of_lt h.current
      rw [List.dropLast_eq_take, length_byAge, ← List.take_succ_cons, Nat.sub_add_cancel hpos]
    rw [Rolling.clearNext, ih h.clear, h.byAge_clear, size_clear, hqueue, List.replicate_succ',
      List.append_assoc, List.singleton_append, List.take_append, List.take_append, List.take_take]
    congr 2
    omega

/-- An advance in the order of age, whether it moves the ring or not. -/
theorem Lawful.byAge_advance (h : r.Lawful) (now : Int) :
    (r.advance now).byAge = (List.replicate (r.moves now) 0 ++ r.byAge).take r.size := by
  unfold advance
  by_cases helapsed : r.elapsed now ≤ 0
  · have hmoves : r.moves now = 0 := by
      unfold moves
      omega
    rw [if_pos helapsed, hmoves]
    exact h.byAge_clearNext 0
  · rw [if_neg helapsed]
    exact h.byAge_clearNext _

@[simp]
theorem size_advance (r : Rolling M) (now : Int) : (r.advance now).size = r.size := by
  unfold advance
  split
  · rfl
  · exact size_clearNext _ r

@[simp]
theorem interval_advance (r : Rolling M) (now : Int) : (r.advance now).interval = r.interval := by
  unfold advance
  split
  · rfl
  · exact interval_clearNext _ r

/-- Moving keeps a current bucket. -/
theorem Lawful.advance (h : r.Lawful) (now : Int) : (r.advance now).Lawful := by
  unfold Rolling.advance
  split
  · exact h
  · exact ⟨(h.clearNext _).current⟩

/-- An advance keeps the length of the buckets. -/
theorem Timed.advance (h : r.Timed) (now : Int) : (r.advance now).Timed :=
  ⟨h.toLawful.advance now, by rw [interval_advance]; exact h.interval_pos⟩

/-- The time of the last move does not pass the clock. -/
theorem lastTime_advance_le (hnow : r.lastTime ≤ now) : (r.advance now).lastTime ≤ now := by
  unfold advance
  split
  · exact hnow
  · exact le_rfl

/-- After an advance the last move is less than one interval ago. -/
theorem Timed.sub_lastTime_advance_lt (h : r.Timed) (hnow : r.lastTime ≤ now) :
    now - (r.advance now).lastTime < r.interval := by
  unfold Rolling.advance
  split
  case isTrue helapsed =>
    have hlt := h.lt_elapsed_mul hnow
    have hnonpos : r.elapsed now * r.interval ≤ 0 :=
      mul_nonpos_of_nonpos_of_nonneg helapsed h.interval_pos.le
    omega
  case isFalse =>
    have hpos := h.interval_pos
    dsimp only
    omega

/-- The time of the last move grows by at least the intervals moved. -/
theorem Timed.moves_mul_le (h : r.Timed) (hnow : r.lastTime ≤ now) :
    r.moves now * r.interval ≤ (r.advance now).lastTime - r.lastTime := by
  unfold Rolling.advance
  by_cases helapsed : r.elapsed now ≤ 0
  · have hmoves : r.moves now = 0 := by
      unfold moves
      omega
    rw [if_pos helapsed, hmoves]
    simp
  · rw [if_neg helapsed]
    have hmoves : (r.moves now : Int) ≤ r.elapsed now := by
      unfold moves
      omega
    exact (mul_le_mul_of_nonneg_right hmoves h.interval_pos.le).trans (h.elapsed_mul_le hnow)

/-- Without a dropped part of an interval, a ring that is not emptied has moved by all of the
time. -/
theorem Timed.lastTime_advance_sub_le (h : r.Timed) (hnow : r.lastTime ≤ now)
    (hwhole : r.WholeIntervals now) (hkept : r.moves now < r.size) :
    (r.advance now).lastTime - r.lastTime ≤ r.moves now * r.interval := by
  have hpos := h.interval_pos
  have hlt := h.lt_elapsed_mul hnow
  have hle := h.elapsed_mul_le hnow
  unfold Rolling.advance
  by_cases helapsed : r.elapsed now ≤ 0
  · have hmoves : r.moves now = 0 := by
      unfold moves
      omega
    rw [if_pos helapsed, hmoves]
    simp
  · rw [if_neg helapsed]
    have hmoves : (r.moves now : Int) = r.elapsed now := by
      unfold moves at hkept ⊢
      omega
    have hcount : r.elapsed now < r.size := by omega
    rw [hmoves]
    rcases hwhole with hshort | ⟨q, hq⟩ | hlong
    · have : r.interval ≤ r.elapsed now * r.interval :=
        le_mul_of_one_le_left hpos.le (by omega)
      omega
    · have hquot : r.elapsed now = q := by
        unfold elapsed
        rw [hq, Int.mul_tdiv_cancel_left _ hpos.ne']
      rw [hquot, mul_comm]
      exact hq.le
    · have : (r.elapsed now + 1) * r.interval ≤ r.size * r.interval :=
        mul_le_mul_of_nonneg_right (by omega) hpos.le
      linarith

end Clear

section Contents

/-- Adding to the current bucket changes the youngest one. -/
theorem Lawful.byAge_addCurrent [Add M] (h : r.Lawful) (m : M) :
    (r.addCurrent m).byAge = r.byAge.modify 0 (· + m) := by
  obtain ⟨before, current, after, hbuckets, hoffset⟩ := h.split
  obtain ⟨buckets, offset, lastTime, interval⟩ := r
  dsimp only at hbuckets hoffset
  subst hbuckets hoffset
  have hmodify : (before ++ current :: after).modify before.length (· + m) =
      before ++ (current + m) :: after := by
    simp [List.modify_eq_set_getElem?]
  simp only [addCurrent, hmodify, byAge_append, List.modify_zero_cons]

@[simp]
theorem size_addCurrent [Add M] (r : Rolling M) (m : M) : (r.addCurrent m).size = r.size := by
  simp [addCurrent, size]

/-- Adding keeps a current bucket. -/
theorem Lawful.addCurrent [Add M] (h : r.Lawful) (m : M) : (r.addCurrent m).Lawful := by
  refine ⟨?_⟩
  rw [size_addCurrent]
  exact h.current

/-- Adding keeps the length of the buckets. -/
theorem Timed.addCurrent [Add M] (h : r.Timed) (m : M) : (r.addCurrent m).Timed :=
  ⟨h.toLawful.addCurrent m, h.interval_pos⟩

variable {f : M → N}

@[simp]
private theorem size_map (r : Rolling M) : (r.map f).size = r.size := by
  simp [map, size]

/-- Whether time is dropped does not depend on the contents. -/
theorem wholeIntervals_map : (r.map f).WholeIntervals now ↔ r.WholeIntervals now := by
  unfold WholeIntervals
  rw [size_map]
  rfl

variable [Zero M] [Zero N]

private theorem map_clearNext (hf : f 0 = 0) (k : Nat) (r : Rolling M) :
    (r.clearNext k).map f = (r.map f).clearNext k := by
  induction k generalizing r with
  | zero => rfl
  | succ k ih =>
    rw [clearNext, ih, clearNext]
    congr 1
    simp [clear, map, size, hf]

/-- Advancing does not look at the contents. -/
theorem map_advance (hf : f 0 = 0) (r : Rolling M) (now : Int) :
    (r.advance now).map f = (r.map f).advance now := by
  have helapsed : (r.map f).elapsed now = r.elapsed now := rfl
  have hmoves : (r.map f).moves now = r.moves now := by
    unfold moves
    rw [helapsed, size_map]
  unfold advance
  rw [helapsed, hmoves]
  split
  · rfl
  · rw [← map_clearNext hf]
    rfl

/-- Nor does adding to the current bucket, beyond the amounts. -/
theorem map_addCurrent {M N : Type*} [Add M] [Add N] {f : M → N} (hf : ∀ a b, f (a + b) = f a + f b)
    (r : Rolling M) (m : M) : (r.addCurrent m).map f = (r.map f).addCurrent (f m) := by
  simp only [addCurrent, map, mk.injEq, and_true]
  apply List.ext_getElem?
  intro i
  rw [List.getElem?_map, List.getElem?_modify, List.getElem?_modify, List.getElem?_map]
  cases r.buckets[i]? with
  | none => rfl
  | some b =>
    by_cases hi : r.offset = i
    · simp [hi, hf]
    · simp [hi]

end Contents

section Within

/-- Without a whole interval there is nothing to advance. -/
theorem advance_eq_self [Zero M] (h : r.elapsed now ≤ 0) : r.advance now = r := if_pos h

/-- After an advance no whole interval is left. -/
theorem elapsed_advance_le [Zero M] (r : Rolling M) (now : Int) :
    (r.advance now).elapsed now ≤ 0 := by
  by_cases h : r.elapsed now ≤ 0
  · rw [advance_eq_self h]
    exact h
  · rw [advance, if_neg h, elapsed]
    simp

/-- What is true of every bucket and of an empty one stays true when buckets are emptied. -/
theorem forall_clearNext [Zero M] {P : M → Prop} (hzero : P 0) (h : ∀ b ∈ r.buckets, P b)
    (k : Nat) :
    ∀ b ∈ (r.clearNext k).buckets, P b := by
  induction k generalizing r with
  | zero => exact h
  | succ k ih =>
    refine ih fun b hb => ?_
    rcases List.mem_or_eq_of_mem_set hb with hb | rfl
    · exact h b hb
    · exact hzero

private theorem forall_advance [Zero M] {P : M → Prop} (hzero : P 0) (h : ∀ b ∈ r.buckets, P b)
    (now : Int) : ∀ b ∈ (r.advance now).buckets, P b := by
  unfold advance
  split
  · exact h
  · exact forall_clearNext hzero h _

variable [AddCommMonoid M] {S : AddSubmonoid M} {m : M}

/-- The contents of every bucket are in a submonoid. -/
def Within (S : AddSubmonoid M) (r : Rolling M) : Prop := ∀ b ∈ r.buckets, b ∈ S

/-- Cleared buckets stay within. -/
theorem Within.advance (h : r.Within S) (now : Int) : (r.advance now).Within S :=
  forall_advance S.zero_mem h now

/-- So does the current bucket. -/
theorem Within.addCurrent (h : r.Within S) (hm : m ∈ S) : (r.addCurrent m).Within S := by
  intro b hb
  obtain ⟨i, hi⟩ := List.mem_iff_getElem?.mp hb
  have hget := List.getElem?_modify (· + m) r.offset r.buckets i
  obtain ⟨a, ha, rfl⟩ := Option.map_eq_some_iff.mp (hget.symm.trans hi)
  have hmem := h a (List.mem_of_getElem? ha)
  split
  · exact S.add_mem hmem hm
  · exact hmem

/-- So are the contents together. -/
theorem Within.sum_mem (h : r.Within S) : r.buckets.sum ∈ S := list_sum_mem h

/-- Adding to the current bucket adds to the contents. -/
theorem Lawful.sum_addCurrent (h : r.Lawful) (m : M) :
    (r.addCurrent m).buckets.sum = r.buckets.sum + m := by
  have hpos : 0 < r.byAge.length := by
    rw [length_byAge]
    exact Nat.zero_lt_of_lt h.current
  obtain ⟨current, older, hage⟩ := List.exists_cons_of_length_pos hpos
  rw [← (r.addCurrent m).byAge_perm.sum_eq, ← r.byAge_perm.sum_eq, h.byAge_addCurrent, hage,
    List.modify_zero_cons, List.sum_cons, List.sum_cons]
  exact add_right_comm ..

end Within

end Rolling

end Stardust.Core
