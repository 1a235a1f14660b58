import Mathlib.Data.Nat.Bitwise
import Mathlib.Tactic.Linarith

/-!
# Bit fields of signed words

Shifting a nonnegative 64-bit word to the left without overflow multiplies it, OR-ing a
small word under a multiple of a power of two adds it, and shifting to the right and masking
take the fields apart again. Words are read through their signed integer value; a word whose
upper field may reach the sign bit is read as an unsigned one.
-/

namespace Stardust.Core

/-- The unsigned reading of a nonnegative word is its signed value. -/
theorem toNat_toBitVec_of_nonneg {x : Int64} (hx : 0 ≤ x.toInt) :
    (x.toBitVec.toNat : Int) = x.toInt := by
  have hb : x.toBitVec.toInt = x.toInt := rfl
  rw [← hb] at hx ⊢
  have hlt := x.toBitVec.isLt
  rw [BitVec.toInt_eq_toNat_cond] at hx ⊢
  split
  · rfl
  · rename_i hc
    simp only [hc, ite_false] at hx
    omega

variable {n : Nat}

/-- A word whose unsigned reading is below the sign bit has that signed value. -/
theorem toInt_eq_of_toNat {x : Int64} (hx : x.toBitVec.toNat = n) (hn : n < 2 ^ 63) :
    x.toInt = n := by
  change x.toBitVec.toInt = n
  rw [BitVec.toInt_eq_toNat_cond, hx, if_pos (by omega)]

/-- A left shift that stays below the sign bit is a multiplication. -/
theorem toInt_shiftLeft {x k : Int64} (hk : (k.toBitVec.smod 64).toNat = n) (hx : 0 ≤ x.toInt)
    (hn : x.toInt * 2 ^ n < 2 ^ 63) : (x <<< k).toInt = x.toInt * 2 ^ n := by
  have hv := toNat_toBitVec_of_nonneg hx
  have hlt : x.toBitVec.toNat * 2 ^ n < 2 ^ 63 := by
    rw [← hv] at hn
    exact_mod_cast hn
  have hs : (x <<< k).toBitVec.toNat = x.toBitVec.toNat * 2 ^ n := by
    rw [Int64.toBitVec_shiftLeft, BitVec.shiftLeft_eq', hk, BitVec.toNat_shiftLeft,
      Nat.shiftLeft_eq, Nat.mod_eq_of_lt (by omega)]
  rw [toInt_eq_of_toNat hs hlt, ← hv]
  push_cast
  rfl

/-- A left shift leaves zeros behind. -/
theorem two_pow_dvd_shiftLeft {k : Int64} (hk : (k.toBitVec.smod 64).toNat = n) (hn : n ≤ 64)
    (x : Int64) : 2 ^ n ∣ (x <<< k).toBitVec.toNat := by
  rw [Int64.toBitVec_shiftLeft, BitVec.shiftLeft_eq', hk, BitVec.toNat_shiftLeft, Nat.shiftLeft_eq]
  exact (Nat.dvd_mod_iff (pow_dvd_pow 2 hn)).mpr (Nat.dvd_mul_left ..)

/-- OR-ing a word below a multiple of a power of two is an addition of the unsigned readings. -/
theorem toNat_or {x y : Int64} (hx : 2 ^ n ∣ x.toBitVec.toNat) (hy : y.toBitVec.toNat < 2 ^ n) :
    (x ||| y).toBitVec.toNat = x.toBitVec.toNat + y.toBitVec.toNat := by
  obtain ⟨q, hq⟩ := hx
  have hxq : x.toBitVec.toNat = q <<< n := by rw [hq, Nat.shiftLeft_eq, Nat.mul_comm]
  rw [Int64.toBitVec_or, BitVec.toNat_or, hxq, Nat.shiftLeft_add_eq_or_of_lt hy]

/-- OR-ing a word below a multiple of a power of two is an addition. -/
theorem toInt_or {x y : Int64} {q : Int} (hq : x.toInt = q * 2 ^ n) (hx : 0 ≤ x.toInt)
    (hy : 0 ≤ y.toInt) (hyn : y.toInt < 2 ^ n) (hsum : x.toInt + y.toInt < 2 ^ 63) :
    (x ||| y).toInt = x.toInt + y.toInt := by
  have hvx := toNat_toBitVec_of_nonneg hx
  have hvy := toNat_toBitVec_of_nonneg hy
  have hdvd : 2 ^ n ∣ x.toBitVec.toNat := by
    have hint : (2 ^ n : Int) ∣ x.toBitVec.toNat := ⟨q, by rw [hvx, hq, mul_comm]⟩
    exact_mod_cast hint
  have hyp : y.toBitVec.toNat < 2 ^ n := by
    rw [← hvy] at hyn
    exact_mod_cast hyn
  rw [toInt_eq_of_toNat (toNat_or hdvd hyp) (by omega)]
  push_cast
  rw [hvx, hvy]

/-- A right shift is a division. -/
theorem toInt_shiftRight {k : Int64} (hk : (k.toBitVec.smod 64).toNat = n) (x : Int64) :
    (x >>> k).toInt = x.toInt / 2 ^ n := by
  change (x >>> k).toBitVec.toInt = _
  rw [Int64.toBitVec_shiftRight, BitVec.sshiftRight_eq', hk, BitVec.toInt_sshiftRight,
    Int.shiftRight_eq_div_pow]
  rfl

/-- Masking a nonnegative word with ones takes a remainder. -/
theorem toInt_and_ones {x m : Int64} (hm : m.toInt = 2 ^ n - 1) (hx : 0 ≤ x.toInt) :
    (x &&& m).toInt = x.toInt % 2 ^ n := by
  have hpow : (0 : Int) < 2 ^ n := by positivity
  have hvx := toNat_toBitVec_of_nonneg hx
  have hvm := toNat_toBitVec_of_nonneg (x := m) (by omega)
  have hones : m.toBitVec.toNat = 2 ^ n - 1 := by
    zify [Nat.one_le_two_pow]
    rw [hvm, hm]
  have hand : (x &&& m).toBitVec.toNat = x.toBitVec.toNat % 2 ^ n := by
    rw [Int64.toBitVec_and, BitVec.toNat_and, hones, Nat.and_two_pow_sub_one_eq_mod]
  have hlt : x.toBitVec.toNat % 2 ^ n < 2 ^ 63 := by
    have hle := Nat.mod_le x.toBitVec.toNat (2 ^ n)
    have hmax := Int64.toInt_lt x
    omega
  rw [toInt_eq_of_toNat hand hlt, ← hvx]
  push_cast
  rfl

end Stardust.Core
