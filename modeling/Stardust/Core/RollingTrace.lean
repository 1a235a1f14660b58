import Stardust.Core.Rolling
import Stardust.Core.System

/-!
# What rolling buckets contain

The same ring is run on the numbers of the entries in place of their amounts. Each bucket of the
ring of amounts is the sum of the entries numbered in its twin, so that an entry is counted as
often as its number occurs. An entry keeps its number for one interval less than the ring is
long; it is gone after the whole length if no advance drops a part of an interval.
-/

namespace Stardust.Core

/-- A recorded amount. -/
structure Recording (M : Type*) where
  /-- The clock reading of the recording. -/
  time : Int
  amount : M

/-- A call on a ring: its clock reading and what it records, if anything. -/
structure Touch (M : Type*) where
  /-- The clock reading of the call. -/
  now : Int
  /-- The amount of a recording call. -/
  amount : Option M

/-- The recordings beside a ring. -/
structure Trace (M : Type*) where
  /-- The numbers of the entries by bucket. -/
  marks : Rolling (Multiset ℕ)
  /-- All entries so far, numbered from zero. -/
  log : List (Recording M)
  /-- The clock reading of the last call. -/
  clock : Int

namespace Rolling

variable {M : Type*}

/-- Advance, then record. -/
def touch [Zero M] [Add M] (r : Rolling M) (c : Touch M) : Rolling M :=
  match c.amount with
  | none => r.advance c.now
  | some m => (r.advance c.now).addCurrent m

/-- Calls keep the number of buckets and their length. -/
theorem touch_shape [Zero M] [Add M] (r : Rolling M) (c : Touch M) :
    (r.touch c).size = r.size ∧ (r.touch c).interval = r.interval := by
  unfold touch
  cases c.amount with
  | none => exact ⟨size_advance r c.now, interval_advance r c.now⟩
  | some m =>
    exact ⟨(size_addCurrent _ m).trans (size_advance r c.now), interval_advance r c.now⟩

/-- The entry with this number is in the bucket of this age. -/
def Holds (r : Rolling (Multiset ℕ)) (age i : ℕ) : Prop := ∃ ids, r.byAge[age]? = some ids ∧ i ∈ ids

/-- How often an entry is counted. -/
def occurrences (r : Rolling (Multiset ℕ)) (i : ℕ) : ℕ := r.buckets.sum.count i

variable {r : Rolling (Multiset ℕ)} {now : Int} {age i id : ℕ}

private theorem Holds.lt_size (h : r.Holds age i) : age < r.size := by
  obtain ⟨ids, hids, -⟩ := h
  rw [← length_byAge]
  exact (List.getElem?_eq_some_iff.mp hids).1

private theorem occurrences_eq_byAge (r : Rolling (Multiset ℕ)) (i : ℕ) :
    r.occurrences i = r.byAge.sum.count i := by
  rw [occurrences, r.byAge_perm.sum_eq]

private theorem mem_list_sum {l : List (Multiset ℕ)} : i ∈ l.sum ↔ ∃ ids ∈ l, i ∈ ids := by
  induction l with
  | nil => simp
  | cons ids l ih => simp [ih]

/-- An entry is counted when some bucket holds it. -/
theorem occurrences_pos_iff : 0 < r.occurrences i ↔ ∃ age, r.Holds age i := by
  rw [occurrences_eq_byAge, Multiset.count_pos, mem_list_sum]
  constructor
  · rintro ⟨ids, hids, hi⟩
    obtain ⟨age, hage⟩ := List.mem_iff_getElem?.mp hids
    exact ⟨age, ids, hage, hi⟩
  · rintro ⟨age, ids, hage, hi⟩
    exact ⟨ids, List.mem_of_getElem? hage, hi⟩

/-- An advance makes what it keeps older by the buckets it moves. -/
theorem Lawful.holds_advance_iff (h : r.Lawful) :
    (r.advance now).Holds age i ↔
      age < r.size ∧ r.moves now ≤ age ∧ r.Holds (age - r.moves now) i := by
  unfold Holds
  rw [h.byAge_advance, List.getElem?_take, List.getElem?_append, List.length_replicate]
  by_cases hsize : age < r.size
  · by_cases hmoves : age < r.moves now
    · rw [if_pos hsize, if_pos hmoves, List.getElem?_replicate, if_pos hmoves]
      simp [hmoves]
    · rw [if_pos hsize, if_neg hmoves]
      simp [hsize, not_lt.mp hmoves]
  · simp [hsize]

/-- An advance counts nothing anew. -/
theorem Lawful.occurrences_advance_le (h : r.Lawful) (now : Int) (i : ℕ) :
    (r.advance now).occurrences i ≤ r.occurrences i := by
  rw [occurrences_eq_byAge, occurrences_eq_byAge, h.byAge_advance, List.take_append,
    List.sum_append, List.take_replicate, List.sum_replicate, nsmul_zero, zero_add]
  generalize hk : r.size - _ = k
  have hsplit : (r.byAge.take k).sum + (r.byAge.drop k).sum = r.byAge.sum := by
    rw [← List.sum_append, List.take_append_drop]
  rw [← hsplit, Multiset.count_add]
  exact Nat.le_add_right _ _

/-- Recording puts one number in the youngest bucket. -/
theorem Lawful.holds_addCurrent_iff (h : r.Lawful) :
    (r.addCurrent {id}).Holds age i ↔ r.Holds age i ∨ age = 0 ∧ i = id := by
  unfold Holds
  rw [h.byAge_addCurrent]
  have hpos : 0 < r.byAge.length := by
    rw [length_byAge]
    exact Nat.zero_lt_of_lt h.current
  obtain ⟨current, older, hage⟩ := List.exists_cons_of_length_pos hpos
  rw [hage, List.modify_zero_cons]
  cases age with
  | zero => simp
  | succ age => simp

/-- Recording counts one number once more. -/
theorem Lawful.occurrences_addCurrent (h : r.Lawful) :
    (r.addCurrent {id}).occurrences i = r.occurrences i + if i = id then 1 else 0 := by
  rw [occurrences_eq_byAge, occurrences_eq_byAge, h.byAge_addCurrent]
  have hpos : 0 < r.byAge.length := by
    rw [length_byAge]
    exact Nat.zero_lt_of_lt h.current
  obtain ⟨current, older, hage⟩ := List.exists_cons_of_length_pos hpos
  rw [hage, List.modify_zero_cons, List.sum_cons, List.sum_cons, Multiset.count_add,
    Multiset.count_add, Multiset.count_add, Multiset.count_singleton]
  omega

end Rolling

namespace Trace

variable {M : Type*}

/-- Nothing is recorded in a new ring. -/
def start (size : Nat) (interval now : Int) : Trace M :=
  ⟨⟨List.replicate size 0, 0, now, interval⟩, [], now⟩

/-- The same call on the numbers of the entries. -/
def touch (t : Trace M) (c : Touch M) : Trace M :=
  match c.amount with
  | none => { t with marks := t.marks.advance c.now, clock := c.now }
  | some m =>
    ⟨(t.marks.advance c.now).addCurrent {t.log.length}, t.log ++ [⟨c.now, m⟩], c.now⟩

/-- The amount of the entry with a number. -/
def amountOf [Zero M] (log : List (Recording M)) (i : ℕ) : M :=
  (log[i]?.map Recording.amount).getD 0

/-- The amounts of the numbered entries together. -/
def total [AddCommMonoid M] (log : List (Recording M)) (ids : Multiset ℕ) : M :=
  (ids.map (amountOf log)).sum

/-- A ring is the sum of its entries, bucket by bucket. -/
def Explains [AddCommMonoid M] (t : Trace M) (r : Rolling M) : Prop := r = t.marks.map (total t.log)

/-- Every entry of the last `size - 1` intervals is counted exactly once. -/
def KeepsOnce (size : Nat) (interval : Int) (t : Trace M) : Prop :=
  ∀ i e, t.log[i]? = some e → t.clock - e.time ≤ (size - 1) * interval → t.marks.occurrences i = 1

/-- No entry is counted `size` intervals after it was recorded. -/
def ForgetsOnTime (size : Nat) (interval : Int) (t : Trace M) : Prop :=
  ∀ i e, t.log[i]? = some e → size * interval ≤ t.clock - e.time → t.marks.occurrences i = 0

/-- What holds of the trace of every run. -/
structure Tracks (t : Trace M) : Prop where
  /-- There is a current bucket, and buckets have a length. -/
  timed : t.marks.Timed
  /-- The last move is not in the future. -/
  moved : t.marks.lastTime ≤ t.clock
  /-- The last move is less than one interval ago. -/
  recent : t.clock - t.marks.lastTime < t.marks.interval
  /-- An entry is not older by buckets than it is by time, but for the one it started in. -/
  placed : ∀ age i, t.marks.Holds age i → ∃ e, t.log[i]? = some e ∧
    (age - 1) * t.marks.interval < t.marks.lastTime - e.time
  /-- No entry is counted twice. -/
  once : ∀ i, t.marks.occurrences i ≤ 1
  /-- An entry that is no longer counted is older than all buckets but one. -/
  lost : ∀ i e, t.log[i]? = some e → t.marks.occurrences i = 0 →
    (t.marks.size - 1) * t.marks.interval < t.marks.lastTime - e.time

/-- No entry is older by time than it is by buckets. -/
def Exact (t : Trace M) : Prop :=
  ∀ age i e, t.marks.Holds age i → t.log[i]? = some e →
    t.marks.lastTime - e.time ≤ age * t.marks.interval

variable {t : Trace M} {c : Touch M} {now : Int} {m : M}

private theorem Tracks.start {size : Nat} {interval : Int} (hsize : 0 < size)
    (hinterval : 0 < interval) (now : Int) : (Trace.start size interval now : Trace M).Tracks := by
  have hocc : ∀ i, (Trace.start size interval now : Trace M).marks.occurrences i = 0 := by
    intro i
    simp [Trace.start, Rolling.occurrences, List.sum_replicate]
  refine ⟨⟨⟨?_⟩, hinterval⟩, le_rfl, ?_, ?_, fun i => (hocc i).le.trans zero_le_one, nofun⟩
  · simpa [Trace.start, Rolling.size] using hsize
  · simpa [Trace.start] using hinterval
  · intro age i hholds
    have hpos := Rolling.occurrences_pos_iff.mpr ⟨age, hholds⟩
    rw [hocc i] at hpos
    exact absurd hpos (lt_irrefl 0)

/-- A call that only advances keeps the trace. -/
theorem Tracks.advance (h : t.Tracks) (hnow : t.clock ≤ now) :
    (⟨t.marks.advance now, t.log, now⟩ : Trace M).Tracks := by
  have hlast : t.marks.lastTime ≤ now := h.moved.trans hnow
  have hmoves := h.timed.moves_mul_le hlast
  have hpos := h.timed.interval_pos
  refine ⟨h.timed.advance now, Rolling.lastTime_advance_le hlast, ?_, ?_, ?_, ?_⟩
  · simpa using h.timed.sub_lastTime_advance_lt hlast
  · intro age i hholds
    obtain ⟨-, hle, hold⟩ := h.timed.holds_advance_iff.mp hholds
    obtain ⟨e, he, hplaced⟩ := h.placed _ i hold
    refine ⟨e, he, ?_⟩
    rw [Rolling.interval_advance]
    push_cast [hle] at hplaced
    linarith
  · intro i
    exact (h.timed.occurrences_advance_le now i).trans (h.once i)
  · intro i e he hzero
    dsimp only at he hzero ⊢
    rw [Rolling.interval_advance, Rolling.size_advance]
    have hgrow : t.marks.lastTime ≤ (t.marks.advance now).lastTime := by
      have : 0 ≤ t.marks.moves now * t.marks.interval := by positivity
      linarith
    by_cases hbefore : t.marks.occurrences i = 0
    · have hlost := h.lost i e he hbefore
      linarith
    · obtain ⟨age, hholds⟩ := Rolling.occurrences_pos_iff.mp (Nat.pos_of_ne_zero hbefore)
      obtain ⟨e', he', hplaced⟩ := h.placed age i hholds
      rw [he] at he'
      cases he'
      have hout : t.marks.size ≤ age + t.marks.moves now := by
        by_contra hin
        have hkept : (t.marks.advance now).Holds (age + t.marks.moves now) i := by
          rw [h.timed.holds_advance_iff, Nat.add_sub_cancel]
          exact ⟨not_le.mp hin, Nat.le_add_left _ _, hholds⟩
        have hcounted := Rolling.occurrences_pos_iff.mpr ⟨_, hkept⟩
        omega
      have hout' : ((t.marks.size : Int) - 1) * t.marks.interval ≤
          (age + t.marks.moves now - 1) * t.marks.interval := by
        apply mul_le_mul_of_nonneg_right _ hpos.le
        omega
      linarith

/-- Recording in the current bucket keeps the trace. -/
theorem Tracks.record (h : t.Tracks) (m : M) :
    (⟨t.marks.addCurrent {t.log.length}, t.log ++ [⟨t.clock, m⟩], t.clock⟩ : Trace M).Tracks := by
  have hpos := h.timed.interval_pos
  have hold : ∀ age i, t.marks.Holds age i → ∃ e, t.log[i]? = some e ∧
      (t.log ++ [⟨t.clock, m⟩])[i]? = some e := by
    intro age i hholds
    obtain ⟨e, he, -⟩ := h.placed age i hholds
    exact ⟨e, he, List.getElem?_append_left (List.getElem?_eq_some_iff.mp he).1 ▸ he⟩
  have hfresh : t.marks.occurrences t.log.length = 0 := by
    by_contra hcounted
    obtain ⟨age, hholds⟩ := Rolling.occurrences_pos_iff.mp (Nat.pos_of_ne_zero hcounted)
    obtain ⟨e, he, -⟩ := h.placed age _ hholds
    simp at he
  refine ⟨h.timed.addCurrent _, h.moved, h.recent, ?_, ?_, ?_⟩
  · intro age i hholds
    rcases h.timed.holds_addCurrent_iff.mp hholds with hholds | ⟨rfl, rfl⟩
    · obtain ⟨e, he, hplaced⟩ := h.placed age i hholds
      obtain ⟨e', he', hlog⟩ := hold age i hholds
      rw [he] at he'
      cases he'
      exact ⟨e, hlog, hplaced⟩
    · refine ⟨⟨t.clock, m⟩, List.getElem?_concat_length, ?_⟩
      have hrecent := h.recent
      simp only [Rolling.addCurrent, Nat.cast_zero]
      linarith
  · intro i
    rw [h.timed.occurrences_addCurrent]
    split
    case isTrue hi =>
      rw [hi, hfresh]
    case isFalse => exact h.once i
  · intro i e he hzero
    dsimp only at he hzero ⊢
    rw [h.timed.occurrences_addCurrent] at hzero
    have hi : i ≠ t.log.length := by
      rintro rfl
      simp at hzero
    rw [if_neg hi, Nat.add_zero] at hzero
    rw [Rolling.size_addCurrent]
    have hlt : i < t.log.length := by
      have := (List.getElem?_eq_some_iff.mp he).1
      rw [List.length_append, List.length_singleton] at this
      omega
    rw [List.getElem?_append_left hlt] at he
    exact h.lost i e he hzero

/-- Every call at a clock reading that does not go back keeps the trace. -/
theorem Tracks.touch (h : t.Tracks) (hnow : t.clock ≤ c.now) : (t.touch c).Tracks := by
  have hadvanced := h.advance hnow
  unfold Trace.touch
  cases c.amount with
  | none => exact hadvanced
  | some m => exact hadvanced.record m

/-- In the last `size - 1` intervals an entry is counted exactly once. -/
theorem Tracks.keepsOnce (h : t.Tracks) : t.KeepsOnce t.marks.size t.marks.interval := by
  intro i e he hage
  have hle := h.once i
  by_contra hne
  have hzero : t.marks.occurrences i = 0 := by omega
  have hlost := h.lost i e he hzero
  have hmoved := h.moved
  linarith

/-- A whole number of intervals moves the ring by the time that has passed. -/
theorem Exact.advance (hexact : t.Exact) (h : t.Tracks) (hnow : t.clock ≤ now)
    (hwhole : t.marks.WholeIntervals now) :
    (⟨t.marks.advance now, t.log, now⟩ : Trace M).Exact := by
  intro age i e hholds he
  have hlast : t.marks.lastTime ≤ now := h.moved.trans hnow
  have hpos := h.timed.interval_pos
  obtain ⟨hage, hle, hold⟩ := h.timed.holds_advance_iff.mp hholds
  have hbefore := hexact _ i e hold he
  have hmoved : (t.marks.advance now).lastTime - t.marks.lastTime ≤
      t.marks.moves now * t.marks.interval :=
    h.timed.lastTime_advance_sub_le hlast hwhole (hle.trans_lt hage)
  rw [Rolling.interval_advance]
  push_cast [hle] at hbefore
  linarith

/-- Recording in the current bucket is exact. -/
theorem Exact.record (hexact : t.Exact) (h : t.Tracks) (m : M) :
    (⟨t.marks.addCurrent {t.log.length}, t.log ++ [⟨t.clock, m⟩], t.clock⟩ : Trace M).Exact := by
  intro age i e hholds he
  rcases h.timed.holds_addCurrent_iff.mp hholds with hholds | ⟨rfl, rfl⟩
  · obtain ⟨e', he', -⟩ := h.placed age i hholds
    rw [List.getElem?_append_left (List.getElem?_eq_some_iff.mp he').1] at he
    exact hexact age i e hholds he
  · rw [List.getElem?_concat_length] at he
    cases he
    have hmoved := h.moved
    simp only [Rolling.addCurrent, Nat.cast_zero]
    linarith

private theorem Exact.touch (hexact : t.Exact) (h : t.Tracks) (hnow : t.clock ≤ c.now)
    (hwhole : t.marks.WholeIntervals c.now) : (t.touch c).Exact := by
  have hadvanced := hexact.advance h hnow hwhole
  unfold Trace.touch
  cases c.amount with
  | none => exact hadvanced
  | some m => exact hadvanced.record (h.advance hnow) m

/-- Where every entry is as old by buckets as by time, none is counted too long. -/
theorem Exact.forgetsOnTime (hexact : t.Exact) (h : t.Tracks) :
    t.ForgetsOnTime t.marks.size t.marks.interval := by
  intro i e he hage
  by_contra hcounted
  obtain ⟨age, hholds⟩ := Rolling.occurrences_pos_iff.mp (Nat.pos_of_ne_zero hcounted)
  have hplaced := hexact age i e hholds he
  have hrecent := h.recent
  have hlt := hholds.lt_size
  have hbound : ((age : Int) + 1) * t.marks.interval ≤ t.marks.size * t.marks.interval := by
    apply mul_le_mul_of_nonneg_right _ h.timed.interval_pos.le
    omega
  linarith

section Amounts

variable [AddCommMonoid M] {r : Rolling M}

private theorem total_zero (log : List (Recording M)) : total log 0 = 0 := rfl

/-- A later entry does not change the amounts of the earlier ones. -/
theorem total_append {log : List (Recording M)} {ids : Multiset ℕ} (h : ∀ i ∈ ids, i < log.length)
    (e : Recording M) : total (log ++ [e]) ids = total log ids := by
  unfold total
  congr 1
  apply Multiset.map_congr rfl
  intro i hi
  unfold amountOf
  rw [List.getElem?_append_left (h i hi)]

/-- The number of a new entry adds its amount. -/
theorem total_add_last {log : List (Recording M)} {ids : Multiset ℕ} (h : ∀ i ∈ ids, i < log.length)
    (e : Recording M) : total (log ++ [e]) (ids + {log.length}) = total log ids + e.amount := by
  have hlast : amountOf (log ++ [e]) log.length = e.amount := by
    unfold amountOf
    rw [List.getElem?_concat_length]
    rfl
  rw [← total_append h e]
  unfold total
  rw [Multiset.map_add, Multiset.sum_add, Multiset.map_singleton, Multiset.sum_singleton, hlast]

private theorem Explains.start (size : Nat) (interval now : Int) :
    (Trace.start size interval now : Trace M).Explains
      ⟨List.replicate size 0, 0, now, interval⟩ := by
  simp [Explains, Trace.start, Rolling.map, total_zero]

private theorem Explains.advance (hexplains : t.Explains r) (now : Int) :
    (⟨t.marks.advance now, t.log, now⟩ : Trace M).Explains (r.advance now) := by
  unfold Explains at *
  rw [hexplains, ← Rolling.map_advance (total_zero t.log)]

private theorem Explains.record (hexplains : t.Explains r) (h : t.Tracks) (m : M) :
    (⟨t.marks.addCurrent {t.log.length}, t.log ++ [⟨t.clock, m⟩], t.clock⟩ : Trace M).Explains
      (r.addCurrent m) := by
  have hnumbers : ∀ ids ∈ t.marks.buckets, ∀ i ∈ ids, i < t.log.length := by
    intro ids hids i hi
    obtain ⟨age, hage⟩ := List.mem_iff_getElem?.mp (t.marks.byAge_perm.mem_iff.mpr hids)
    obtain ⟨e, he, -⟩ := h.placed age i ⟨ids, hage, hi⟩
    exact (List.getElem?_eq_some_iff.mp he).1
  unfold Explains at *
  rw [hexplains]
  simp only [Rolling.addCurrent, Rolling.map, Rolling.mk.injEq, and_true]
  apply List.ext_getElem?
  intro k
  rw [List.getElem?_modify, List.getElem?_map, List.getElem?_map, List.getElem?_modify]
  cases hk : t.marks.buckets[k]? with
  | none => simp
  | some ids =>
    have hids := hnumbers ids (List.mem_of_getElem? hk)
    by_cases hoffset : t.marks.offset = k
    · simp [hoffset, total_add_last hids]
    · simp [hoffset, total_append hids]

/-- A ring and its trace go on together. -/
theorem Explains.touch (hexplains : t.Explains r) (h : t.Tracks) (hnow : t.clock ≤ c.now) :
    (t.touch c).Explains (r.touch c) := by
  have hadvanced := hexplains.advance c.now
  unfold Trace.touch Rolling.touch
  cases c.amount with
  | none => exact hadvanced
  | some m => exact hadvanced.record (h.advance hnow) m

end Amounts

private theorem start_size (size : Nat) (interval now : Int) :
    (Trace.start size interval now : Trace M).marks.size = size := List.length_replicate

/-- Calls keep the number of buckets and their length. -/
theorem touch_shape (t : Trace M) (c : Touch M) :
    (t.touch c).marks.size = t.marks.size ∧ (t.touch c).marks.interval = t.marks.interval := by
  unfold touch
  cases c.amount with
  | none => exact ⟨Rolling.size_advance _ _, Rolling.interval_advance _ _⟩
  | some m =>
    exact ⟨(Rolling.size_addCurrent _ _).trans (Rolling.size_advance _ _),
      Rolling.interval_advance _ _⟩

end Trace

/-- A type of objects that work as rings of buckets under their calls. -/
structure Bucketed (Object Call M : Type*) [AddCommMonoid M] where
  /-- The buckets of an object. -/
  ring : Object → Rolling M
  /-- One call, absent where it panics. -/
  call : Object → Call → Option Object
  /-- The clock reading of a call and what it records. -/
  touch : Call → Touch M
  /-- The objects that construction and calls lead to. -/
  Sound : Object → Prop
  /-- A call on such an object returns, and works on its buckets as on a ring. -/
  call_spec : ∀ o c, Sound o →
    ∃ o', call o c = some o' ∧ Sound o' ∧ ring o' = (ring o).touch (touch c)

namespace Bucketed

variable {Object Call M : Type*} [AddCommMonoid M] (kind : Bucketed Object Call M)

/-- The calls on one object at clock readings that do not go back, with what they record. -/
def recorded (start : Object × Trace M) : System (Object × Trace M) Call where
  init s := s = start
  step s c :=
    if s.2.clock ≤ (kind.touch c).now then
      (kind.call s.1 c).map fun o => (o, s.2.touch (kind.touch c))
    else none

/-- The clock readings of the calls do not go back. -/
def InOrder : Int → List Call → Prop
  | _, [] => True
  | clock, c :: calls => clock ≤ (kind.touch c).now ∧ InOrder (kind.touch c).now calls

/-- The buckets are those of a sound object, and hold what its trace says. -/
structure Consistent (s : Object × Trace M) : Prop where
  /-- Construction and calls led to the object. -/
  sound : kind.Sound s.1
  /-- The numbers of the entries are in order. -/
  tracks : s.2.Tracks
  /-- The buckets are the sums of their entries. -/
  explains : s.2.Explains (kind.ring s.1)

variable {kind} {start s s' : Object × Trace M} {c : Call} {calls : List Call}

private theorem recorded_step_iff : (kind.recorded start).step s c = some s' ↔
    s.2.clock ≤ (kind.touch c).now ∧
      ∃ o, kind.call s.1 c = some o ∧ (o, s.2.touch (kind.touch c)) = s' := by
  simp [recorded]

/-- Runs keep the number of buckets and their length. -/
theorem recorded_run_shape (hrun : (kind.recorded start).run s calls = some s') :
    s'.2.marks.size = s.2.marks.size ∧ s'.2.marks.interval = s.2.marks.interval := by
  refine (kind.recorded start).run_invariant
    (P := fun u => u.2.marks.size = s.2.marks.size ∧ u.2.marks.interval = s.2.marks.interval)
    ?_ ⟨rfl, rfl⟩ hrun
  rintro u c u' ⟨hsize, hinterval⟩ hstep
  obtain ⟨-, o, -, rfl⟩ := recorded_step_iff.mp hstep
  obtain ⟨hsize', hinterval'⟩ := u.2.touch_shape (kind.touch c)
  exact ⟨hsize'.trans hsize, hinterval'.trans hinterval⟩

/-- One call keeps a consistent state. -/
theorem Consistent.step (h : kind.Consistent s)
    (hstep : (kind.recorded start).step s c = some s') : kind.Consistent s' := by
  obtain ⟨hnow, o, hcall, rfl⟩ := recorded_step_iff.mp hstep
  obtain ⟨o', hcall', hsound, hring⟩ := kind.call_spec s.1 c h.sound
  rw [hcall] at hcall'
  cases hcall'
  refine ⟨hsound, h.tracks.touch hnow, ?_⟩
  rw [hring]
  exact h.explains.touch h.tracks hnow

/-- Calls in the order of time all return. -/
theorem Consistent.run_inOrder (h : kind.Consistent s) (horder : kind.InOrder s.2.clock calls) :
    ∃ s', (kind.recorded start).run s calls = some s' := by
  induction calls generalizing s with
  | nil => exact ⟨s, rfl⟩
  | cons c calls ih =>
    obtain ⟨hnow, hrest⟩ := horder
    obtain ⟨o, hcall, -, -⟩ := kind.call_spec s.1 c h.sound
    have hstep : (kind.recorded start).step s c = some (o, s.2.touch (kind.touch c)) :=
      recorded_step_iff.mpr ⟨hnow, o, hcall, rfl⟩
    have hclock : (s.2.touch (kind.touch c)).clock = (kind.touch c).now := by
      unfold Trace.touch
      cases (kind.touch c).amount <;> rfl
    obtain ⟨s', hrun⟩ := ih (h.step hstep) (by rw [hclock]; exact hrest)
    exact ⟨s', (kind.recorded start).run_cons_iff.mpr ⟨_, hstep, hrun⟩⟩

/-- At the end of every run the buckets are the sums of entries, and none of the last `size - 1`
intervals is missing or counted twice. -/
theorem Consistent.run_keepsOnce (h : kind.Consistent s)
    (hrun : (kind.recorded start).run s calls = some s') :
    s'.2.Explains (kind.ring s'.1) ∧ s'.2.KeepsOnce s.2.marks.size s.2.marks.interval := by
  have hend : kind.Consistent s' :=
    (kind.recorded start).run_invariant (fun _ _ _ hs hstep => Consistent.step hs hstep) h hrun
  obtain ⟨hsize, hinterval⟩ := recorded_run_shape hrun
  refine ⟨hend.explains, ?_⟩
  rw [← hsize, ← hinterval]
  exact hend.tracks.keepsOnce

/-- Calls that drop no part of an interval forget every entry on time. -/
theorem Consistent.run_forgetsOnTime (h : kind.Consistent s) (hexact : s.2.Exact)
    (hguarded : (kind.recorded start).Guarded
      (fun s c => (kind.ring s.1).WholeIntervals (kind.touch c).now) s calls)
    (hrun : (kind.recorded start).run s calls = some s') :
    s'.2.Explains (kind.ring s'.1) ∧ s'.2.ForgetsOnTime s.2.marks.size s.2.marks.interval := by
  have hstep : ∀ s c s', kind.Consistent s ∧ s.2.Exact →
      (kind.ring s.1).WholeIntervals (kind.touch c).now →
      (kind.recorded start).step s c = some s' → kind.Consistent s' ∧ s'.2.Exact := by
    rintro s c s' ⟨hs, hexact⟩ hwhole hstep
    refine ⟨hs.step hstep, ?_⟩
    obtain ⟨hnow, o, -, rfl⟩ := recorded_step_iff.mp hstep
    rw [hs.explains, Rolling.wholeIntervals_map] at hwhole
    exact hexact.touch hs.tracks hnow hwhole
  obtain ⟨hend, hexact'⟩ := (kind.recorded start).run_guarded hstep ⟨h, hexact⟩ hguarded hrun
  obtain ⟨hsize, hinterval⟩ := recorded_run_shape hrun
  refine ⟨hend.explains, ?_⟩
  rw [← hsize, ← hinterval]
  exact hexact'.forgetsOnTime hend.tracks

section Start

variable {o : Object} {size : Nat} {interval now : Int} (hsound : kind.Sound o)
  (hring : kind.ring o = ⟨List.replicate size 0, 0, now, interval⟩) (hsize : 0 < size)
  (hinterval : 0 < interval) (horder : kind.InOrder now calls)

include hsound hring hsize hinterval

/-- A new object is consistent with an empty trace. -/
theorem consistent_start : kind.Consistent (o, Trace.start size interval now) := by
  refine ⟨hsound, Trace.Tracks.start hsize hinterval now, ?_⟩
  rw [hring]
  exact Trace.Explains.start size interval now

include horder

/-- Calls in the order of time on a new object keep every entry for all intervals but one. -/
theorem run_start_keepsOnce :
    ∃ s, (kind.recorded start).run (o, Trace.start size interval now) calls = some s ∧
      s.2.Explains (kind.ring s.1) ∧ s.2.KeepsOnce size interval := by
  have hstart := consistent_start hsound hring hsize hinterval
  obtain ⟨s, hrun⟩ := hstart.run_inOrder horder
  have hkeeps := hstart.run_keepsOnce hrun
  rw [Trace.start_size] at hkeeps
  exact ⟨s, hrun, hkeeps⟩

/-- Calls in the order of time on a new object forget every entry on time, if none of them drops
a part of an interval. -/
theorem run_start_forgetsOnTime
    (hguarded : (kind.recorded start).Guarded
      (fun s c => (kind.ring s.1).WholeIntervals (kind.touch c).now)
      (o, Trace.start size interval now) calls) :
    ∃ s, (kind.recorded start).run (o, Trace.start size interval now) calls = some s ∧
      s.2.Explains (kind.ring s.1) ∧ s.2.ForgetsOnTime size interval := by
  have hstart := consistent_start hsound hring hsize hinterval
  obtain ⟨s, hrun⟩ := hstart.run_inOrder horder
  have hexact : (Trace.start size interval now : Trace M).Exact := nofun
  have hforgets := hstart.run_forgetsOnTime hexact hguarded hrun
  rw [Trace.start_size] at hforgets
  exact ⟨s, hrun, hforgets⟩

end Start

end Bucketed

end Stardust.Core
