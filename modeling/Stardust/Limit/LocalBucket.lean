import Mathlib.Algebra.BigOperators.Ring.Finset
import Mathlib.Algebra.Order.Ring.Rat
import Stardust.Limit.Agreement

/-!
# The limiter's own bucket over a window

Callers read the clock before they take the lock, so the clocks of a sequence of calls need
not be ordered. A call with a clock behind the one before takes the refill back and may leave a
debt; whatever the clocks are, a call draws on what the one before left and the refill between
the two, and one that is granted leaves no debt.
-/

namespace Stardust.Limit

open Stardust.Core

/-- One call of `localAllow`. -/
structure Attempt where
  /-- The clock that the caller has read. -/
  now : ℚ
  /-- The number of requests. -/
  n : Int
  deriving DecidableEq, Repr

namespace TokenLimiter

/-- A call as a request to the limiter. -/
def attempt (tl : TokenLimiter) (a : Attempt) : Bool × TokenLimiter := tl.localAllow a.now a.n

/-- What each of the calls is granted, nothing when it is denied. -/
def granted (tl : TokenLimiter) (calls : List Attempt) : List Int :=
  List.zipWith (fun a allowed => if allowed then a.n else 0) calls (answers attempt tl calls)

/-- The draw that a call makes from the bucket. -/
def draw (tl : TokenLimiter) (a : Attempt) : Draw ℚ :=
  ⟨a.now, if (tl.attempt a).1 then a.n else 0, (tl.attempt a).2.localTokens⟩

/-- The draws of a sequence of calls. -/
def draws : TokenLimiter → List Attempt → List (Draw ℚ)
  | _, [] => []
  | tl, a :: calls => tl.draw a :: draws (tl.attempt a).2 calls

variable (tl : TokenLimiter) (a : Attempt) (calls : List Attempt)

/-- A call changes the bucket only. -/
theorem attempt_settings :
    (tl.attempt a).2.rate = tl.rate ∧ (tl.attempt a).2.burst = tl.burst ∧
      (tl.attempt a).2.localLast = a.now := by
  rw [attempt, localAllow_eq]
  exact ⟨rfl, rfl, rfl⟩

/-- What a call is granted and leaves is what it found. -/
theorem draw_granted_add_left : (tl.draw a).granted + (tl.draw a).left = tl.refilled a.now := by
  simp only [draw, attempt, localAllow_eq, decide_eq_true_eq]
  split <;> ring

/-- A call that is granted leaves no debt. -/
theorem draw_left_nonneg (h : (tl.attempt a).1 = true) : 0 ≤ (tl.draw a).left := by
  simp only [attempt, localAllow_eq, decide_eq_true_eq] at h
  simp only [draw, attempt, localAllow_eq, if_pos h]
  linarith

/-- The next call lives on what a call left, also when its clock is behind. -/
theorem draw_fed (b : Attempt) : Draw.Fed (tl.rate : ℚ) (tl.draw a) ((tl.attempt a).2.draw b) := by
  obtain ⟨hrate, -, hlast⟩ := tl.attempt_settings a
  rw [Draw.Fed, draw_granted_add_left]
  calc (tl.attempt a).2.refilled b.now
      ≤ (tl.attempt a).2.localTokens + (b.now - (tl.attempt a).2.localLast) *
          (tl.attempt a).2.rate := min_le_right ..
    _ = (tl.draw a).left + tl.rate * (b.now - (tl.draw a).time) := by
        rw [hrate, hlast, mul_comm]
        rfl

/-- The draws of any sequence of calls are metered. -/
theorem draws_metered : Draw.Metered (tl.rate : ℚ) tl.burst (tl.draws calls) := by
  induction calls generalizing tl with
  | nil => exact Draw.metered_nil
  | cons a calls ih =>
    obtain ⟨hrate, hburst, -⟩ := tl.attempt_settings a
    have hrest := ih (tl.attempt a).2
    rw [hrate, hburst] at hrest
    refine ⟨?_, List.isChain_cons.mpr ⟨fun d hd => ?_, hrest.fed⟩⟩
    · rintro d (- | ⟨-, hd⟩)
      · rw [draw_granted_add_left]
        exact min_le_left ..
      · exact hrest.capped d hd
    · cases calls with
      | nil => simp [draws] at hd
      | cons b calls =>
        obtain rfl : (tl.attempt a).2.draw b = d := by simpa [draws] using hd
        exact tl.draw_fed a b

/-- The draws have the clocks of the calls. -/
theorem draws_time {i : Nat} (h : calls[i]? = some a) :
    ∃ d, (tl.draws calls)[i]? = some d ∧ d.time = a.now := by
  induction calls generalizing tl i with
  | nil => simp at h
  | cons b calls ih =>
    cases i with
    | zero =>
      obtain rfl : b = a := by simpa using h
      exact ⟨tl.draw b, rfl, rfl⟩
    | succ i => exact ih (tl.attempt b).2 (by simpa using h)

/-- The draw of a call that is granted leaves no debt. -/
theorem draws_left_nonneg {j : Nat} (h : (answers attempt tl calls)[j]? = some true) {d : Draw ℚ}
    (hd : (tl.draws calls)[j]? = some d) : 0 ≤ d.left := by
  induction calls generalizing tl j with
  | nil => simp [draws] at hd
  | cons a calls ih =>
    cases j with
    | zero =>
      obtain rfl : tl.draw a = d := by simpa [draws] using hd
      exact tl.draw_left_nonneg a (by simpa [answers] using h)
    | succ j => exact ih (tl.attempt a).2 (by simpa [answers] using h) (by simpa [draws] using hd)

/-- The draws have the amounts that the calls are granted. -/
theorem draws_granted :
    (tl.draws calls).map Draw.granted = (tl.granted calls).map ((↑) : Int → ℚ) := by
  induction calls generalizing tl with
  | nil => rfl
  | cons a calls ih =>
    have hrest := ih (tl.attempt a).2
    simp only [granted, draws, answers, List.map_cons, List.zipWith_cons_cons] at hrest ⊢
    rw [hrest, List.cons.injEq]
    refine ⟨?_, rfl⟩
    simp only [draw]
    split <;> simp

/-- The amount granted over a window as a total of draws. -/
theorem total_draws_window (i n : Nat) :
    Draw.total (((tl.draws calls).drop i).take n) = (((tl.granted calls).drop i).take n).sum := by
  rw [Draw.total, List.map_take, List.map_drop, draws_granted, ← List.map_drop, ← List.map_take]
  exact (Int.cast_list_sum _).symm

end TokenLimiter

/-- Over every window of calls of `localAllow` that ends with a granted one, whatever clocks the
callers have read, the amount granted is within the burst and the refill from the first clock to
the last. -/
theorem granted_le_burst_add_refill (rate burst : Int) (key : String) (created : ℚ)
    (calls : List Attempt) (i j : Nat) (hij : i ≤ j) (first last : Attempt)
    (hfirst : calls[i]? = some first) (hlast : calls[j]? = some last)
    (hgranted : (answers TokenLimiter.attempt (newTokenLimiter rate burst key created)
      calls)[j]? = some true) :
    ((((newTokenLimiter rate burst key created).granted calls).drop i).take (j + 1 - i)).sum ≤
      burst + rate * (last.now - first.now) := by
  obtain ⟨d, hd, hdtime⟩ :=
    (newTokenLimiter rate burst key created).draws_time first calls hfirst
  obtain ⟨e, he, hetime⟩ :=
    (newTokenLimiter rate burst key created).draws_time last calls hlast
  have hleft := (newTokenLimiter rate burst key created).draws_left_nonneg calls hgranted he
  have hmetered := (newTokenLimiter rate burst key created).draws_metered calls
  have hbound := hmetered.total_between_le hij hd he
  rw [TokenLimiter.total_draws_window, hdtime, hetime] at hbound
  have hsettings : (newTokenLimiter rate burst key created).rate = rate ∧
      (newTokenLimiter rate burst key created).burst = burst := ⟨rfl, rfl⟩
  rw [hsettings.1, hsettings.2] at hbound
  linarith

/-- A burst, a denied call with an earlier clock, and a call on the refill of the second after. -/
theorem granted_le_burst_add_refill_unordered :
    (((newTokenLimiter 2 5 "orders" 0).granted [⟨3, 5⟩, ⟨1, 1⟩, ⟨4, 2⟩]).drop 0).take 3 =
        [5, 0, 2] ∧
      (((((newTokenLimiter 2 5 "orders" 0).granted [⟨3, 5⟩, ⟨1, 1⟩, ⟨4, 2⟩]).drop 0).take
        3).sum : ℚ) ≤ (5 : Int) + (2 : Int) * (4 - 3) :=
  ⟨by decide +kernel, granted_le_burst_add_refill 2 5 "orders" 0 [⟨3, 5⟩, ⟨1, 1⟩, ⟨4, 2⟩] 0 2
    (by decide) ⟨3, 5⟩ ⟨4, 2⟩ rfl rfl (by decide +kernel)⟩

end Stardust.Limit
