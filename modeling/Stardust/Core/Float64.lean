import Mathlib.Data.Int.Log
import Mathlib.Data.Rat.Floor
import Mathlib.Tactic.Linarith
import Mathlib.Tactic.Positivity
import Mathlib.Tactic.FieldSimp

/-!
# The nearest float64

A finite float64 is an integer of at most 53 bits times a power of two. The exact value of a
number is rounded to the grid of its own magnitude, to the even neighbour in the middle between
two. The result is a float64 as near as any other, so a number is kept exactly when it is one.
-/

namespace Stardust.Core.Float64

/-- The nearest integer, the even one of two. -/
def roundEven (x : ℚ) : ℤ :=
  if x - ⌊x⌋ < 1 / 2 then ⌊x⌋
  else if 1 / 2 < x - ⌊x⌋ then ⌊x⌋ + 1
  else if ⌊x⌋ % 2 = 0 then ⌊x⌋
  else ⌊x⌋ + 1

/-- The exponent of the last bit of a number, with 53 bits or at the lower end of the range. -/
def exponent (x : ℚ) : ℤ := max (Int.log 2 |x| - 52) (-1074)

/-- Rounding without an upper end of the range. -/
def round (x : ℚ) : ℚ := roundEven (x / 2 ^ exponent x) * 2 ^ exponent x

/-- The nearest float64, absent for an overflow. -/
def nearest (x : ℚ) : Option ℚ := if |round x| < 2 ^ 1024 then some (round x) else none

/-- A float64 but for the upper end of the range. -/
def Representable (x : ℚ) : Prop := ∃ m e : ℤ, x = m * 2 ^ e ∧ |m| < 2 ^ 53 ∧ -1074 ≤ e

section RoundEven

variable (x : ℚ)

private theorem roundEven_eq : roundEven x = ⌊x⌋ ∧ x - ⌊x⌋ ≤ 1 / 2 ∨
    roundEven x = ⌊x⌋ + 1 ∧ 1 / 2 ≤ x - ⌊x⌋ := by
  unfold roundEven
  split_ifs with hbelow habove heven
  · exact .inl ⟨rfl, hbelow.le⟩
  · exact .inr ⟨rfl, habove.le⟩
  · exact .inl ⟨rfl, not_lt.mp habove⟩
  · exact .inr ⟨rfl, not_lt.mp hbelow⟩

/-- No integer is nearer. -/
theorem abs_sub_roundEven_le (z : ℤ) : |x - roundEven x| ≤ |x - z| := by
  have hfloor := Int.floor_le x
  have hlt := Int.lt_floor_add_one x
  rcases le_or_gt z ⌊x⌋ with hz | hz
  · have hz' : (z : ℚ) ≤ ⌊x⌋ := by exact_mod_cast hz
    rw [abs_of_nonneg (by linarith : 0 ≤ x - z)]
    rcases roundEven_eq x with ⟨heq, hhalf⟩ | ⟨heq, hhalf⟩
    · rw [heq, abs_of_nonneg (by linarith)]
      linarith
    · rw [heq, Int.cast_add, Int.cast_one, abs_of_nonpos (by linarith)]
      linarith
  · have hz' : (⌊x⌋ : ℚ) + 1 ≤ z := by exact_mod_cast hz
    rw [abs_of_nonpos (by linarith : x - z ≤ 0)]
    rcases roundEven_eq x with ⟨heq, hhalf⟩ | ⟨heq, hhalf⟩
    · rw [heq, abs_of_nonneg (by linarith)]
      linarith
    · rw [heq, Int.cast_add, Int.cast_one, abs_of_nonpos (by linarith)]
      linarith

/-- An integer bound survives rounding. -/
theorem abs_roundEven_le {b : ℤ} (h : |x| ≤ b) : |roundEven x| ≤ b := by
  obtain ⟨hlow, hhigh⟩ := abs_le.mp h
  have hfloor : -b ≤ ⌊x⌋ := Int.le_floor.mpr (by exact_mod_cast hlow)
  have hceil : ⌊x⌋ ≤ b := Int.floor_le_iff.mpr (by linarith)
  rcases roundEven_eq x with ⟨heq, -⟩ | ⟨heq, hhalf⟩
  · rw [heq]
    exact abs_le.mpr ⟨hfloor, hceil⟩
  · rw [heq]
    have hne : ⌊x⌋ ≠ b := by
      intro hfb
      rw [hfb] at hhalf
      linarith
    exact abs_le.mpr ⟨by omega, by omega⟩

end RoundEven

section Round

variable (x : ℚ)

private theorem unit_pos (e : ℤ) : (0 : ℚ) < 2 ^ e := zpow_pos (by norm_num) e

/-- The scaled number has at most 53 bits. -/
theorem abs_scaled_le : |x / 2 ^ exponent x| ≤ ((2 ^ 53 : ℤ) : ℚ) := by
  have hlog : |x| < 2 ^ (Int.log 2 |x| + 1) := by
    exact_mod_cast Int.lt_zpow_succ_log_self (b := 2) (by decide) |x|
  have hle : Int.log 2 |x| + 1 ≤ 53 + exponent x := by
    have := le_max_left (Int.log 2 |x| - 52) (-1074)
    unfold exponent
    omega
  have hpow : (2 : ℚ) ^ (Int.log 2 |x| + 1) ≤ 2 ^ (53 : ℤ) * 2 ^ exponent x := by
    rw [← zpow_add₀ (by norm_num)]
    exact zpow_le_zpow_right₀ (by norm_num) hle
  rw [abs_div, abs_of_pos (unit_pos _), div_le_iff₀ (unit_pos _)]
  exact_mod_cast (hlog.trans_le hpow).le

private theorem representable_round : Representable (round x) := by
  have hbound := abs_roundEven_le _ (abs_scaled_le x)
  have hexp : -1074 ≤ exponent x := le_max_right ..
  rcases lt_or_eq_of_le hbound with hlt | heq
  · exact ⟨_, _, rfl, hlt, hexp⟩
  · rcases abs_eq (by norm_num : (0 : ℤ) ≤ 2 ^ 53) |>.mp heq with hpos | hneg
    · refine ⟨2 ^ 52, exponent x + 1, ?_, by norm_num, by omega⟩
      rw [round, hpos, zpow_add₀ (by norm_num)]
      push_cast
      ring
    · refine ⟨-2 ^ 52, exponent x + 1, ?_, by norm_num, by omega⟩
      rw [round, hneg, zpow_add₀ (by norm_num)]
      push_cast
      ring

/-- No multiple of the last bit is nearer. -/
theorem abs_sub_round_le (z : ℤ) : |x - round x| ≤ |x - z * 2 ^ exponent x| := by
  have hscale : ∀ w : ℤ, |x - w * 2 ^ exponent x| = |x / 2 ^ exponent x - w| * 2 ^ exponent x := by
    intro w
    rw [← abs_of_pos (unit_pos (exponent x)), ← abs_mul, sub_mul, abs_of_pos (unit_pos _),
      div_mul_cancel₀ _ (unit_pos _).ne']
  rw [round, hscale, hscale]
  exact mul_le_mul_of_nonneg_right (abs_sub_roundEven_le _ z) (unit_pos _).le

/-- The power of two below a number is on its grid. -/
theorem abs_sub_round_le_of_le (h : 2 ^ 52 * 2 ^ exponent x ≤ |x|) :
    |x - round x| ≤ |x| - 2 ^ 52 * 2 ^ exponent x := by
  have hpos := abs_sub_round_le x (2 ^ 52)
  have hneg := abs_sub_round_le x (-2 ^ 52)
  rw [Int.cast_pow, Int.cast_ofNat] at hpos
  rw [Int.cast_neg, Int.cast_pow, Int.cast_ofNat, neg_mul, sub_neg_eq_add] at hneg
  generalize (2 : ℚ) ^ 52 * 2 ^ exponent x = p at h hpos hneg ⊢
  rcases abs_cases x with ⟨habs, -⟩ | ⟨habs, -⟩
  · rw [habs] at h ⊢
    rwa [abs_of_nonneg (sub_nonneg.mpr h)] at hpos
  · rw [habs] at h ⊢
    rw [abs_of_nonpos (by linarith : x + p ≤ 0)] at hneg
    linarith

/-- No float64 is nearer than the rounded number. -/
theorem abs_sub_round_le_of_representable {y : ℚ} (hy : Representable y) :
    |x - round x| ≤ |x - y| := by
  obtain ⟨m, f, rfl, hm, hf⟩ := hy
  rcases le_or_gt (exponent x) f with hle | hlt
  · obtain ⟨k, hk⟩ := Int.eq_ofNat_of_zero_le (sub_nonneg.mpr hle)
    have hpow : (m : ℚ) * 2 ^ f = (m * 2 ^ k : ℤ) * 2 ^ exponent x := by
      rw [show f = (k : ℤ) + exponent x by omega, zpow_add₀ (by norm_num), zpow_natCast]
      push_cast
      ring
    rw [hpow]
    exact abs_sub_round_le x _
  · rcases eq_or_ne x 0 with rfl | hx
    · have hzero := abs_sub_round_le 0 0
      simp only [Int.cast_zero, zero_mul, sub_zero, abs_zero] at hzero
      exact hzero.trans (abs_nonneg _)
    · have hexp : exponent x = Int.log 2 |x| - 52 := by
        unfold exponent at hlt ⊢
        omega
      have hlog : (2 : ℚ) ^ Int.log 2 |x| ≤ |x| := by
        exact_mod_cast Int.zpow_log_le_self (b := 2) (by decide) (abs_pos.mpr hx)
      have hpow : (2 : ℚ) ^ Int.log 2 |x| = 2 ^ 52 * 2 ^ exponent x := by
        rw [hexp, zpow_sub₀ (by norm_num)]
        field_simp
      have hbelow : |(m : ℚ) * 2 ^ f| ≤ 2 ^ Int.log 2 |x| := by
        have hm' : |(m : ℚ)| ≤ 2 ^ 53 := by exact_mod_cast hm.le
        have hstep : (2 : ℚ) ^ (f + 1) ≤ 2 ^ exponent x := zpow_le_zpow_right₀ (by norm_num) hlt
        rw [abs_mul, abs_of_pos (unit_pos f), hpow]
        rw [zpow_add₀ (by norm_num), zpow_one] at hstep
        have := mul_le_mul_of_nonneg_right hm' (unit_pos f).le
        linarith
      have hnear := abs_sub_round_le_of_le x (hpow ▸ hlog)
      have htriangle := abs_sub_abs_le_abs_sub x (m * 2 ^ f)
      linarith

/-- A number is kept exactly when it is a float64. -/
theorem round_eq_self_iff : round x = x ↔ Representable x := by
  constructor
  · intro h
    rw [← h]
    exact representable_round x
  · intro h
    have hzero := abs_sub_round_le_of_representable x h
    rw [sub_self, abs_zero, abs_nonpos_iff, sub_eq_zero] at hzero
    exact hzero.symm

end Round

/-- An integer is a float64 when it has at most 53 bits before its zeros at the end. -/
theorem representable_intCast_iff (n : ℤ) :
    Representable n ↔ ∃ (m : ℤ) (k : ℕ), n = m * 2 ^ k ∧ |m| < 2 ^ 53 := by
  constructor
  · rintro ⟨m, e, hn, hm, -⟩
    rcases le_or_gt 0 e with he | he
    · obtain ⟨k, rfl⟩ := Int.eq_ofNat_of_zero_le he
      refine ⟨m, k, ?_, hm⟩
      exact_mod_cast hn
    · refine ⟨n, 0, by ring, ?_⟩
      have hpow : (2 : ℚ) ^ e ≤ 1 := zpow_le_one_of_nonpos₀ (by norm_num) he.le
      have habs : |(n : ℚ)| ≤ |(m : ℚ)| := by
        rw [hn, abs_mul, abs_of_pos (unit_pos e)]
        exact mul_le_of_le_one_right (abs_nonneg _) hpow
      exact lt_of_le_of_lt (by exact_mod_cast habs) hm
  · rintro ⟨m, k, rfl, hm⟩
    exact ⟨m, k, by push_cast; rfl, hm, by omega⟩

/-- Integers far from the upper end of the range have a nearest float64. -/
theorem nearest_intCast {n : ℤ} (h : |n| ≤ 2 ^ 63) : nearest n = some (round n) := by
  rw [nearest, if_pos]
  have hzero := abs_sub_round_le (n : ℚ) 0
  rw [Int.cast_zero, zero_mul, sub_zero] at hzero
  have hn : |(n : ℚ)| ≤ 2 ^ 63 := by exact_mod_cast h
  have htriangle := abs_sub_abs_le_abs_sub (round (n : ℚ)) n
  rw [abs_sub_comm] at htriangle
  have hbound : |round (n : ℚ)| ≤ 2 ^ 64 := by linarith
  exact hbound.trans_lt (pow_lt_pow_right₀ (by norm_num) (by norm_num))

end Stardust.Core.Float64
