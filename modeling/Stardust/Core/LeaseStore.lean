import Mathlib.Data.List.Sort

/-!
# Key-value stores with leases

Entries are kept in the order of their keys, one for each key. An entry may be bound to a
lease that the store has granted; revoking the lease removes exactly the entries bound to it.
Lease numbers are positive and never used twice.
-/

namespace Stardust.Core

/-- A key with its value, bound to a lease or, with lease `0`, to none. -/
structure Entry (K V : Type*) where
  key : K
  /-- The value last put under the key. -/
  value : V
  /-- The lease of the last put, `0` without one. -/
  lease : Nat
  deriving DecidableEq, Repr

/-- A granted lease. -/
structure Lease where
  id : Nat
  /-- Its time to live in seconds. -/
  ttl : Int
  deriving DecidableEq, Repr

/-- The store: its entries by key, the leases in force and the number of leases ever granted. -/
structure LeaseStore (K V : Type*) [LinearOrder K] where
  entries : List (Entry K V)
  /-- The leases that are neither revoked nor expired. -/
  leases : List Lease
  /-- How many leases have been granted. -/
  granted : Nat
  /-- The entries are in the order of their keys, which are distinct. -/
  ordered : entries.Pairwise (·.key < ·.key)
  /-- Leases are numbered from one. -/
  numbered : ∀ lease ∈ leases, lease.id ≠ 0 ∧ lease.id ≤ granted
  /-- An entry is bound to no lease or to one in force. -/
  attached : ∀ entry ∈ entries, entry.lease = 0 ∨ ∃ lease ∈ leases, lease.id = entry.lease

namespace LeaseStore

variable {K V : Type*} [LinearOrder K]

/-- A store with nothing in it. -/
def empty : LeaseStore K V where
  entries := []
  leases := []
  granted := 0
  ordered := List.Pairwise.nil
  numbered := by simp
  attached := by simp

/-- Grant a new lease. -/
def grant (s : LeaseStore K V) (ttl : Int) : LeaseStore K V where
  entries := s.entries
  leases := ⟨s.granted + 1, ttl⟩ :: s.leases
  granted := s.granted + 1
  ordered := s.ordered
  numbered := by
    intro lease hlease
    rcases List.mem_cons.mp hlease with rfl | hlease
    · exact ⟨Nat.succ_ne_zero _, le_rfl⟩
    · obtain ⟨hpos, hle⟩ := s.numbered lease hlease
      exact ⟨hpos, Nat.le_succ_of_le hle⟩
  attached := by
    intro entry hentry
    refine (s.attached entry hentry).imp_right ?_
    rintro ⟨lease, hlease, hid⟩
    exact ⟨lease, List.mem_cons_of_mem _ hlease, hid⟩

/-- A lease is in force. -/
def Holds (s : LeaseStore K V) (id : Nat) : Prop := ∃ lease ∈ s.leases, lease.id = id

instance (s : LeaseStore K V) (id : Nat) : Decidable (s.Holds id) :=
  inferInstanceAs (Decidable (∃ lease ∈ s.leases, lease.id = id))

/-- The entries after a put: the one under its key is replaced or a new one inserted. -/
def putEntries (entries : List (Entry K V)) (entry : Entry K V) : List (Entry K V) :=
  (entries.filter (·.key ≠ entry.key)).orderedInsert (·.key ≤ ·.key) entry

variable {entries : List (Entry K V)}

/-- Putting replaces the entry of the key. -/
theorem mem_putEntries {entry other : Entry K V} :
    other ∈ putEntries entries entry ↔
      other = entry ∨ other ∈ entries ∧ other.key ≠ entry.key := by
  simp [putEntries, List.mem_orderedInsert]

variable {entry : Entry K V}

/-- A put of a new key adds its entry to the others. -/
theorem perm_putEntries (h : ∀ other ∈ entries, other.key ≠ entry.key) :
    (putEntries entries entry).Perm (entry :: entries) := by
  have hall : entries.filter (·.key ≠ entry.key) = entries :=
    List.filter_eq_self.mpr fun other hother => decide_eq_true (h other hother)
  rw [putEntries, hall]
  exact List.perm_orderedInsert ..

/-- Inserting a new key in its place keeps the order strict. -/
theorem orderedInsert_ordered (h : entries.Pairwise (·.key < ·.key))
    (hne : ∀ other ∈ entries, other.key ≠ entry.key) :
    (entries.orderedInsert (·.key ≤ ·.key) entry).Pairwise (·.key < ·.key) := by
  induction entries with
  | nil => simp
  | cons first rest ih =>
    rw [List.pairwise_cons] at h
    rw [List.forall_mem_cons] at hne
    rw [List.orderedInsert_cons]
    split
    · next hle =>
      have hlt : entry.key < first.key := lt_of_le_of_ne hle hne.1.symm
      refine List.pairwise_cons.mpr ⟨?_, List.pairwise_cons.mpr h⟩
      exact List.forall_mem_cons.mpr ⟨hlt, fun other hother => hlt.trans (h.1 other hother)⟩
    · next hle =>
      refine List.pairwise_cons.mpr ⟨?_, ih h.2 hne.2⟩
      intro other hother
      rcases (List.mem_orderedInsert _).mp hother with rfl | hother
      · exact not_le.mp hle
      · exact h.1 other hother

private theorem putEntries_ordered (entry : Entry K V) (h : entries.Pairwise (·.key < ·.key)) :
    (putEntries entries entry).Pairwise (·.key < ·.key) :=
  orderedInsert_ordered (h.filter _) fun _ hother => of_decide_eq_true (List.mem_filter.mp hother).2

/-- Put an entry, which needs its lease to be in force. -/
def put (s : LeaseStore K V) (entry : Entry K V) : Option (LeaseStore K V) :=
  if h : entry.lease = 0 ∨ s.Holds entry.lease then
    some
      { entries := putEntries s.entries entry
        leases := s.leases
        granted := s.granted
        ordered := putEntries_ordered entry s.ordered
        numbered := s.numbered
        attached := by
          intro other hother
          rcases mem_putEntries.mp hother with rfl | ⟨hother, _⟩
          · exact h
          · exact s.attached other hother }
  else none

/-- Remove the entry under a key. -/
def delete (s : LeaseStore K V) (key : K) : LeaseStore K V where
  entries := s.entries.filter (·.key ≠ key)
  leases := s.leases
  granted := s.granted
  ordered := s.ordered.filter _
  numbered := s.numbered
  attached := fun entry hentry => s.attached entry (List.mem_of_mem_filter hentry)

/-- Revoke a lease that is in force, together with the entries bound to it. -/
def revoke (s : LeaseStore K V) (id : Nat) : Option (LeaseStore K V) :=
  if s.Holds id then
    some
      { entries := s.entries.filter (·.lease ≠ id)
        leases := s.leases.filter (·.id ≠ id)
        granted := s.granted
        ordered := s.ordered.filter _
        numbered := fun lease hlease => s.numbered lease (List.mem_of_mem_filter hlease)
        attached := by
          intro entry hentry
          obtain ⟨hentry, hne⟩ := List.mem_filter.mp hentry
          refine (s.attached entry hentry).imp_right ?_
          rintro ⟨lease, hlease, hid⟩
          exact ⟨lease, List.mem_filter.mpr ⟨hlease, by simpa [hid] using hne⟩, hid⟩ }
  else none

/-- The entries whose keys satisfy a condition, by key. -/
def range (s : LeaseStore K V) (p : K → Bool) : List (Entry K V) := s.entries.filter (p ·.key)

/-- Entries are bound to leases granted so far. -/
theorem lease_le_granted (s : LeaseStore K V) (h : entry ∈ s.entries) :
    entry.lease ≤ s.granted := by
  rcases s.attached entry h with hzero | ⟨lease, hlease, hid⟩
  · omega
  · exact hid ▸ (s.numbered lease hlease).2

/-- A new lease is in force. -/
theorem grant_holds (s : LeaseStore K V) (ttl : Int) : (s.grant ttl).Holds (s.granted + 1) :=
  ⟨_, List.mem_cons_self .., rfl⟩

variable {s s' : LeaseStore K V}

/-- What a put leaves. -/
theorem put_entries (h : s.put entry = some s') : s'.entries = putEntries s.entries entry := by
  unfold put at h
  split at h
  · cases h
    rfl
  · cases h

/-- Putting under a lease in force succeeds. -/
theorem put_of_holds {s : LeaseStore K V} (h : s.Holds entry.lease) :
    ∃ s', s.put entry = some s' := ⟨_, dif_pos (Or.inr h)⟩

/-- What a revocation leaves. -/
theorem revoke_entries {id : Nat} (h : s.revoke id = some s') :
    s'.entries = s.entries.filter (·.lease ≠ id) := by
  unfold revoke at h
  split at h
  · cases h
    rfl
  · cases h

/-- A put elsewhere does not show in a range. -/
theorem range_put {p : K → Bool} (h : s.put entry = some s') (hp : p entry.key = false) :
    s'.range p = s.range p := by
  have hold : ∀ other : Entry K V,
      (p other.key && decide (other.key ≠ entry.key)) = p other.key := by
    intro other
    by_cases heq : other.key = entry.key
    · simp [heq, hp]
    · simp [heq]
  unfold range
  rw [put_entries h, putEntries, List.orderedInsert_eq_take_drop, List.filter_append,
    List.filter_cons_of_neg (by simp [hp]), ← List.filter_append, List.takeWhile_append_dropWhile,
    List.filter_filter]
  simp only [hold]

/-- Deleting a key elsewhere does not show in a range. -/
theorem range_delete {s : LeaseStore K V} {key : K} {p : K → Bool} (hp : p key = false) :
    (s.delete key).range p = s.range p := by
  unfold range delete
  rw [List.filter_filter]
  apply List.filter_congr
  intro entry _
  by_cases heq : entry.key = key
  · simp [heq, hp]
  · simp [heq]

/-- Revoking a lease that no entry of a range is bound to does not show in it. -/
theorem range_revoke {id : Nat} {p : K → Bool} (h : s.revoke id = some s')
    (hfree : ∀ entry ∈ s.range p, entry.lease ≠ id) : s'.range p = s.range p := by
  unfold range
  rw [revoke_entries h, List.filter_filter]
  apply List.filter_congr
  intro entry hentry
  by_cases hp : p entry.key
  · simp [hp, hfree entry (List.mem_filter.mpr ⟨hentry, hp⟩)]
  · simp [hp]

end LeaseStore

end Stardust.Core
