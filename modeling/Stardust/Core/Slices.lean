import Mathlib.Data.List.Basic
import Stardust.Core.Effects

/-!
# Slices over shared arrays

A slice is a window into a backing array with room behind it. Appending writes into that room as
far as it goes and takes a new array otherwise, so what another slice of the same array shows may
change. How much room a new array gets is an arbitrary function of its number. What a slice holds
is stated against the memory, and each operation says what holds after it.
-/

namespace Stardust.Core

variable {α : Type}

/-- The backing arrays by their numbers. -/
abbrev Memory (α : Type) := List (List α)

/-- A window onto an array in memory. -/
structure Slice where
  array : Nat
  offset : Nat
  len : Nat
  cap : Nat
  deriving DecidableEq, Repr

namespace Slice

/-- A new array that begins with some elements, and the slice of these. -/
def alloc (zero : α) (spare : Nat → Nat) (xs : List α) : Go (Memory α) String Slice := do
  let m ← get
  set (m ++ [xs ++ List.replicate (spare m.length) zero])
  return ⟨m.length, 0, xs.length, xs.length + spare m.length⟩

/-- What the slice shows. -/
def read (s : Slice) : Go (Memory α) String (List α) := do
  let m ← get
  return (((m[s.array]?).getD []).drop s.offset).take s.len

/-- Elements are put into the array from an index of the slice on. -/
def write (s : Slice) (i : Nat) (xs : List α) : Go (Memory α) String Unit :=
  modify fun m => m.modify s.array fun a =>
    a.take (s.offset + i) ++ xs ++ a.drop (s.offset + i + xs.length)

/-- What `append(s, xs...)` does. -/
def append (zero : α) (spare : Nat → Nat) (s : Slice) (xs : List α) :
    Go (Memory α) String Slice := do
  if s.len + xs.length ≤ s.cap then
    s.write s.len xs
    return { s with len := s.len + xs.length }
  else
    let shown ← s.read
    alloc zero spare (shown ++ xs)

/-- What `copy(s, xs)` does. -/
def copy (s : Slice) (xs : List α) : Go (Memory α) String Unit := s.write 0 (xs.take s.len)

/-- What `s[i:j]` is; the room behind the slice may be taken in again. -/
def slice (s : Slice) (i j : Nat) : Go (Memory α) String Slice :=
  if i ≤ j ∧ j ≤ s.cap then return ⟨s.array, s.offset + i, j - i, s.cap - i⟩
  else throw "runtime error: slice bounds out of range"

/-- The slice shows these elements, inside its array. -/
structure Holds (m : Memory α) (s : Slice) (xs : List α) : Prop where
  len : s.len = xs.length
  cap : s.len ≤ s.cap
  window : ∃ before after, m[s.array]? = some (before ++ xs ++ after) ∧
    before.length = s.offset ∧ s.cap ≤ xs.length + after.length

section Frames

variable {m m' : Memory α} {s t : Slice} {xs ys : List α}

/-- Its array exists. -/
theorem Holds.array_lt (h : Holds m s xs) : s.array < m.length := by
  obtain ⟨before, after, harray, -⟩ := h.window
  exact (List.getElem?_eq_some_iff.mp harray).1

/-- A slice shows the same as long as its array is the same. -/
theorem Holds.frame (h : Holds m s xs) (harray : m'[s.array]? = m[s.array]?) : Holds m' s xs :=
  ⟨h.len, h.cap, by rw [harray]; exact h.window⟩

/-- A new array changes no other one. -/
theorem Holds.alloc (h : Holds m s xs) (a : List α) : Holds (m ++ [a]) s xs :=
  h.frame (List.getElem?_append_left h.array_lt)

private theorem Holds.modify (h : Holds m s xs) {k : Nat} (hne : k ≠ s.array)
    (f : List α → List α) : Holds (m.modify k f) s xs :=
  h.frame (by simp [hne])

end Frames

section Operations

variable {m : Memory α} {s : Slice} {xs : List α} (zero : α) (spare : Nat → Nat)

/-- Allocation gives a new array and keeps the others. -/
theorem exec_alloc (m : Memory α) (xs : List α) : ∃ m' s',
    (alloc zero spare xs).exec m = (.ok s', m') ∧ Holds m' s' xs ∧ s'.array = m.length ∧
      ∀ t ys, Holds m t ys → Holds m' t ys := by
  refine ⟨_, _, rfl, ⟨rfl, Nat.le_add_right .., [], List.replicate (spare m.length) zero, ?_⟩, rfl,
    fun t ys ht => ht.alloc _⟩
  simp

/-- Reading returns what is held. -/
theorem exec_read (h : Holds m s xs) : (read s).exec m = (.ok xs, m) := by
  obtain ⟨before, after, harray, hoffset, -⟩ := h.window
  have hshown : (((m[s.array]?).getD []).drop s.offset).take s.len = xs := by
    rw [harray, Option.getD_some, ← hoffset, List.append_assoc, List.drop_left, h.len,
      List.take_left]
  exact congrArg (fun shown => (Except.ok shown, m)) hshown

/-- Writing changes one array only. -/
theorem exec_write {before rest : List α} (harray : m[s.array]? = some (before ++ rest))
    {i : Nat} (hbefore : before.length = s.offset + i) (ys : List α) :
    ∃ m', (s.write i ys).exec m = (.ok (), m') ∧
      m'[s.array]? = some (before ++ ys ++ rest.drop ys.length) ∧
      ∀ t zs, t.array ≠ s.array → Holds m t zs → Holds m' t zs := by
  refine ⟨_, rfl, ?_, fun t zs hne ht => ht.modify hne.symm _⟩
  rw [List.getElem?_modify, harray, ← hbefore]
  simp [List.drop_append]

/-- Appending adds to what the slice shows, wherever it puts it. -/
theorem exec_append (h : Holds m s xs) (ys : List α) : ∃ m' s',
    (append zero spare s ys).exec m = (.ok s', m') ∧ Holds m' s' (xs ++ ys) ∧
      ∀ t zs, t.array ≠ s.array → Holds m t zs → Holds m' t zs := by
  obtain ⟨before, after, harray, hoffset, hcap⟩ := h.window
  by_cases hroom : s.len + ys.length ≤ s.cap
  · have hlen := h.len
    obtain ⟨m', hwrite, hnew, hframe⟩ := exec_write harray (i := s.len)
      (by rw [List.length_append, hoffset, hlen]) ys
    refine ⟨m', { s with len := s.len + ys.length }, ?_, ⟨?_, hroom, before, after.drop ys.length,
      by rw [hnew, List.append_assoc before], hoffset, ?_⟩, hframe⟩
    · unfold append
      rw [if_pos hroom, Go.exec_bind, hwrite]
      rfl
    · rw [List.length_append, hlen]
    · rw [List.length_append, List.length_drop]
      dsimp only
      omega
  · obtain ⟨m', s', halloc, hholds, -, hframe⟩ := exec_alloc zero spare m (xs ++ ys)
    refine ⟨m', s', ?_, hholds, fun t zs _ => hframe t zs⟩
    unfold append
    rw [if_neg hroom, Go.exec_bind, exec_read h]
    exact halloc

/-- Copying replaces the beginning of what the slice shows. -/
theorem exec_copy (h : Holds m s xs) (ys : List α) : ∃ m', (s.copy ys).exec m = (.ok (), m') ∧
    Holds m' s (ys.take xs.length ++ xs.drop ys.length) ∧
      ∀ t zs, t.array ≠ s.array → Holds m t zs → Holds m' t zs := by
  obtain ⟨before, after, harray, hoffset, hcap⟩ := h.window
  rw [List.append_assoc] at harray
  obtain ⟨m', hwrite, hnew, hframe⟩ := exec_write harray (i := 0) hoffset (ys.take s.len)
  have hlen : (ys.take xs.length ++ xs.drop ys.length).length = xs.length := by
    simp only [List.length_append, List.length_take, List.length_drop]
    omega
  have hkept : (xs ++ after).drop (ys.take xs.length).length = xs.drop ys.length ++ after := by
    rw [List.length_take, List.drop_append_of_le_length (Nat.min_le_left ..)]
    rcases Nat.le_total xs.length ys.length with hle | hle
    · rw [Nat.min_eq_left hle, List.drop_length, List.drop_eq_nil_of_le hle]
    · rw [Nat.min_eq_right hle]
  refine ⟨m', hwrite, ⟨by rw [hlen, h.len], h.cap, before, after, ?_, hoffset, ?_⟩, hframe⟩
  · rw [hnew, h.len, hkept]
    simp only [List.append_assoc]
  · rw [hlen]
    exact hcap

/-- A slice inside what is shown shows a part of it. -/
theorem exec_slice (h : Holds m s xs) {i j : Nat} (hij : i ≤ j) (hj : j ≤ xs.length) :
    ∃ s', (slice s i j).exec m = (.ok s', m) ∧ Holds m s' ((xs.take j).drop i) := by
  obtain ⟨before, after, harray, hoffset, hcap⟩ := h.window
  have hlen := h.len
  have hle := h.cap
  refine ⟨⟨s.array, s.offset + i, j - i, s.cap - i⟩, ?_, ⟨?_, ?_, before ++ xs.take i,
    xs.drop j ++ after, ?_, ?_, ?_⟩⟩
  · unfold slice
    rw [if_pos ⟨hij, by omega⟩]
    rfl
  · simp
    omega
  · dsimp only
    omega
  · have htake : (xs.take j).take i = xs.take i := by rw [List.take_take, Nat.min_eq_left hij]
    have hparts : xs = xs.take i ++ (xs.take j).drop i ++ xs.drop j := by
      rw [← htake, List.take_append_drop, List.take_append_drop]
    rw [harray]
    conv_lhs => rw [hparts]
    simp only [List.append_assoc]
  · simp
    omega
  · simp
    omega

end Operations

end Slice

end Stardust.Core
