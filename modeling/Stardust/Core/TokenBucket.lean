import Mathlib.Algebra.Order.Ring.Defs
import Mathlib.Data.List.Chain
import Mathlib.Tactic.Linarith
import Mathlib.Tactic.Ring

/-!
# Draws from a token bucket

A draw records the clock of a request, the amount it was granted and what it left
in the bucket. The bound on a window of draws is a potential argument: what a draw
grants and leaves comes out of what the draw before left and the refill between
the two clocks, so the grants of a window telescope. Clocks need not be ordered.
-/

namespace Stardust.Core

/-- One answered request to a token bucket. -/
structure Draw (R : Type*) where
  /-- The clock of the request. -/
  time : R
  /-- The amount granted, zero when the request was denied. -/
  granted : R
  /-- The tokens left in the bucket. -/
  left : R
  deriving DecidableEq, Repr

namespace Draw

variable {R : Type*}

/-- The amount granted over a list of draws. -/
def total [Add R] [Zero R] (draws : List (Draw R)) : R := (draws.map granted).sum

@[simp] private theorem total_cons [Add R] [Zero R] (d : Draw R) (draws : List (Draw R)) :
    total (d :: draws) = d.granted + total draws := by
  simp [total]

variable [CommRing R] [LinearOrder R] [IsStrictOrderedRing R] {rate capacity : R}

/-- A draw takes and leaves no more than what the draw before left and the refill since. -/
def Fed (rate : R) (d d' : Draw R) : Prop :=
  d'.granted + d'.left ≤ d.left + rate * (d'.time - d.time)

/-- Draws from one bucket that is never filled beyond its capacity or its refill. -/
structure Metered (rate capacity : R) (draws : List (Draw R)) : Prop where
  /-- No draw found more than the capacity. -/
  capped : ∀ d ∈ draws, d.granted + d.left ≤ capacity
  /-- Every draw but the first lives on what the one before left. -/
  fed : draws.IsChain (Fed rate)

omit [IsStrictOrderedRing R] in
/-- Nothing is drawn before the first request. -/
theorem metered_nil : Metered rate capacity [] :=
  ⟨fun _ h => absurd h List.not_mem_nil, .nil⟩

variable {draws : List (Draw R)}

omit [IsStrictOrderedRing R] in
/-- One more draw has to respect the capacity and the last draw. -/
theorem Metered.concat (h : Metered rate capacity draws) {d : Draw R}
    (hcap : d.granted + d.left ≤ capacity) (hfed : ∀ last ∈ draws.getLast?, Fed rate last d) :
    Metered rate capacity (draws ++ [d]) := by
  refine ⟨fun e he => ?_, h.fed.append (.singleton d) fun last hlast e he => ?_⟩
  · rcases List.mem_append.mp he with he | he
    · exact h.capped e he
    · rw [List.mem_singleton.mp he]
      exact hcap
  · obtain rfl : d = e := by simpa using he
    exact hfed last hlast

omit [IsStrictOrderedRing R] in
/-- A window of metered draws is metered. -/
theorem Metered.window {before draws after : List (Draw R)}
    (h : Metered rate capacity (before ++ draws ++ after)) : Metered rate capacity draws := by
  refine ⟨fun d hd => h.capped d ?_, h.fed.left_of_append.right_of_append⟩
  exact List.mem_append_left _ (List.mem_append_right _ hd)

/-- Along a chain of draws the grants and what is left at the end are paid by what was
left at the start and the refill in between. -/
theorem total_add_left_le_of_chain {d : Draw R} (h : (d :: draws).IsChain (Fed rate)) :
    total draws + (draws.getLastD d).left ≤
      d.left + rate * ((draws.getLastD d).time - d.time) := by
  induction draws generalizing d with
  | nil => simp [total]
  | cons e draws ih =>
    rw [List.isChain_cons_cons] at h
    have hfirst : e.granted + e.left ≤ d.left + rate * (e.time - d.time) := h.1
    have hrest := ih h.2
    rw [total_cons, List.getLastD_cons]
    calc e.granted + total draws + (draws.getLastD e).left
        ≤ e.granted + (e.left + rate * ((draws.getLastD e).time - e.time)) := by linarith
      _ ≤ d.left + rate * (e.time - d.time) + rate * ((draws.getLastD e).time - e.time) := by
          linarith
      _ = d.left + rate * ((draws.getLastD e).time - d.time) := by ring

/-- The grants of a window and what it leaves are at most the capacity and the refill
from its first draw to its last. -/
theorem Metered.total_add_left_le {d : Draw R} (h : Metered rate capacity (d :: draws)) :
    total (d :: draws) + (draws.getLastD d).left ≤
      capacity + rate * ((draws.getLastD d).time - d.time) := by
  have hfirst := h.capped d List.mem_cons_self
  have hrest := total_add_left_le_of_chain h.fed
  rw [total_cons]
  linarith

/-- The same between two draws of a longer record. -/
theorem Metered.total_between_le (h : Metered rate capacity draws) {i j : Nat} (hij : i ≤ j)
    {d e : Draw R} (hd : draws[i]? = some d) (he : draws[j]? = some e) :
    total ((draws.drop i).take (j + 1 - i)) + e.left ≤ capacity + rate * (e.time - d.time) := by
  obtain ⟨hi, rfl⟩ := List.getElem?_eq_some_iff.mp hd
  have hwindow : (draws.drop i).take (j + 1 - i) =
      draws[i] :: (draws.drop (i + 1)).take (j - i) := by
    rw [List.drop_eq_getElem_cons hi, show j + 1 - i = j - i + 1 by omega, List.take_succ_cons]
  have hlast : ((draws.drop i).take (j + 1 - i)).getLast? = some e := by
    have hne : j + 1 - i ≠ 0 := by omega
    rw [List.getLast?_take, if_neg hne, List.getElem?_drop,
      show i + (j + 1 - i - 1) = j by omega, he, Option.some_or]
  rw [hwindow, List.getLast?_cons, ← List.getLastD_eq_getLast?, Option.some.injEq] at hlast
  have hsplit : draws.take i ++ (draws.drop i).take (j + 1 - i) ++
      (draws.drop i).drop (j + 1 - i) = draws := by
    rw [List.append_assoc, List.take_append_drop, List.take_append_drop]
  rw [← hsplit] at h
  have hmetered := h.window
  rw [hwindow] at hmetered ⊢
  have hbound := hmetered.total_add_left_le
  rwa [hlast] at hbound

end Draw

end Stardust.Core
