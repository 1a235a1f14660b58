import Mathlib.Logic.Function.Iterate

/-!
# Maps that respect exclusive or, and the 16-bit check sum

A map of bit vectors that respects exclusive or is determined by its values at the powers of two.
The remainder of a cyclic redundancy check is such a map in the remainder it starts from, apart
from what the octets bring in: after a word it is the remainder before, shifted by the length of
the word, and the check sum of the word.
-/

namespace Stardust.Core

variable {u v w : Nat}

/-- The map respects exclusive or. -/
def XorLinear (f : BitVec v → BitVec w) : Prop := ∀ a b, f (a ^^^ b) = f a ^^^ f b

private theorem xor_xor_xor_comm (a b c d : BitVec w) :
    (a ^^^ b) ^^^ (c ^^^ d) = (a ^^^ c) ^^^ (b ^^^ d) := by
  rw [BitVec.xor_assoc, ← BitVec.xor_assoc b, BitVec.xor_comm b c, BitVec.xor_assoc c,
    ← BitVec.xor_assoc a]

/-- Two terms can change sides. -/
theorem xor_eq_xor_iff {a b c d : BitVec w} : a ^^^ b = c ^^^ d ↔ a ^^^ c = b ^^^ d := by
  rw [← BitVec.xor_eq_zero_iff, xor_xor_xor_comm, BitVec.xor_eq_zero_iff]

/-- The value that a bit selects. -/
def bitSelect (i : Nat) (t : BitVec w) (x : BitVec v) : BitVec w := if x.getLsbD i then t else 0#w

/-- The exclusive or of the values that the bits select, from a bit on. -/
def select : Nat → List (BitVec w) → BitVec v → BitVec w
  | _, [], _ => 0#w
  | i, t :: table, x => bitSelect i t x ^^^ select (i + 1) table x

namespace XorLinear

variable {f g : BitVec v → BitVec w}

/-- Zero goes to zero. -/
theorem zero (hf : XorLinear f) : f 0#v = 0#w := by
  have h := hf 0#v 0#v
  rwa [BitVec.xor_self, BitVec.xor_self] at h

/-- Equal values differ by what goes to zero. -/
theorem eq_zero_of_eq (hf : XorLinear f) {a b : BitVec v} (h : f a = f b) :
    f (a ^^^ b) = 0#w := by
  rw [hf, h, BitVec.xor_self]

/-- The identity is linear. -/
theorem id : XorLinear (id : BitVec w → BitVec w) := fun _ _ => rfl

/-- Compositions are linear. -/
theorem comp {h : BitVec u → BitVec v} (hf : XorLinear f) (hh : XorLinear h) :
    XorLinear (f ∘ h) := by
  intro a b
  rw [Function.comp_apply, hh, hf]
  rfl

/-- Sums are linear. -/
theorem xor (hf : XorLinear f) (hg : XorLinear g) : XorLinear fun x => f x ^^^ g x := by
  intro a b
  dsimp only
  rw [hf, hg]
  exact xor_xor_xor_comm ..

/-- Iterates are linear. -/
theorem iterate {f : BitVec w → BitVec w} (hf : XorLinear f) (n : Nat) : XorLinear f^[n] := by
  induction n with
  | zero => exact id
  | succ n ih => exact ih.comp hf

/-- Cutting bits off is linear. -/
theorem setWidth : XorLinear (BitVec.setWidth w : BitVec v → BitVec w) :=
  fun _ _ => BitVec.setWidth_xor

/-- A word that depends on one bit is linear. -/
theorem bitSelect (i : Nat) (t : BitVec w) :
    XorLinear (Core.bitSelect i t : BitVec v → BitVec w) := by
  intro a b
  unfold Core.bitSelect
  rw [BitVec.getLsbD_xor]
  cases a.getLsbD i <;> cases b.getLsbD i <;> simp

/-- The sum of the words selected by the bits is linear. -/
theorem select (i : Nat) (table : List (BitVec w)) :
    XorLinear (Core.select i table : BitVec v → BitVec w) := by
  induction table generalizing i with
  | nil => exact fun _ _ => BitVec.xor_self.symm
  | cons t table ih => exact (bitSelect i t).xor (ih (i + 1))

/-- The bits of a vector below a bound, and the next one. -/
theorem setWidth_succ (x : BitVec v) (i : Nat) :
    (x.setWidth (i + 1)).setWidth v =
      (x.setWidth i).setWidth v ^^^ Core.bitSelect i (BitVec.twoPow v i) x := by
  apply BitVec.eq_of_getLsbD_eq
  intro j hj
  have hbit : (Core.bitSelect i (BitVec.twoPow v i) x).getLsbD j =
      (x.getLsbD i && decide (j = i)) := by
    unfold Core.bitSelect
    cases x.getLsbD i <;> simp [hj]
  rw [BitVec.getLsbD_xor, hbit]
  simp only [BitVec.getLsbD_setWidth, hj, decide_true, Bool.true_and]
  rcases Nat.lt_trichotomy j i with hlt | rfl | hgt
  · have hle : j < i + 1 := by omega
    have hne : ¬ j = i := by omega
    simp [hlt, hle, hne]
  · simp
  · have hle : ¬ j < i + 1 := by omega
    have hlt : ¬ j < i := by omega
    have hne : ¬ j = i := by omega
    simp [hlt, hle, hne]

/-- Maps that agree at the powers of two are equal. -/
theorem eq_of_twoPow (hf : XorLinear f) (hg : XorLinear g)
    (h : ∀ i < v, f (BitVec.twoPow v i) = g (BitVec.twoPow v i)) (x : BitVec v) : f x = g x := by
  have hlow : ∀ i ≤ v, f ((x.setWidth i).setWidth v) = g ((x.setWidth i).setWidth v) := by
    intro i hi
    induction i with
    | zero =>
      have hzero : (x.setWidth 0).setWidth v = 0#v := by
        rw [show x.setWidth 0 = 0#0 from BitVec.of_length_zero, BitVec.setWidth_zero]
      rw [hzero, hf.zero, hg.zero]
    | succ i ih =>
      rw [setWidth_succ, hf, hg, ih (by omega)]
      congr 1
      unfold Core.bitSelect
      split
      · exact h i (by omega)
      · rw [hf.zero, hg.zero]
  have hall := hlow v (Nat.le_refl v)
  rwa [BitVec.setWidth_eq, BitVec.setWidth_eq] at hall

end XorLinear

variable (c : BitVec 16)

/-- One shift of the remainder by the polynomial `x ^ 16 + x ^ 12 + x ^ 5 + 1`. -/
def crcShift : BitVec 16 :=
  if c.msb then (c <<< 1) ^^^ 0x1021#16 else c <<< 1

/-- The remainder after an octet. -/
def crcByte (b : UInt8) : BitVec 16 :=
  crcShift^[8] (c ^^^ (b.toBitVec.setWidth 16 <<< 8))

/-- The remainder after a word. -/
def crcFrom (bytes : List UInt8) : BitVec 16 := bytes.foldl crcByte c

/-- The check sum of a word. -/
def crc16 (bytes : List UInt8) : BitVec 16 := crcFrom 0#16 bytes

/-- The checksum goes on where it was. -/
theorem crc16_append (a b : List UInt8) : crc16 (a ++ b) = crcFrom (crc16 a) b :=
  List.foldl_append

/-- The bit that is shifted out selects the polynomial. -/
theorem crcShift_eq : crcShift c = (c <<< 1) ^^^ bitSelect 15 0x1021#16 c := by
  have hmsb : c.msb = c.getLsbD 15 := BitVec.msb_eq_getLsbD_last c
  unfold crcShift bitSelect
  rw [hmsb]
  split
  · rfl
  · exact BitVec.xor_zero.symm

/-- One step of the register is linear. -/
theorem xorLinear_crcShift : XorLinear crcShift := by
  have hshift : XorLinear fun c : BitVec 16 => c <<< 1 :=
    fun a b => BitVec.shiftLeft_xor_distrib a b 1
  rw [funext crcShift_eq]
  exact hshift.xor (XorLinear.bitSelect 15 0x1021#16)

private theorem crcByte_eq (b : UInt8) : crcByte c b = crcShift^[8] c ^^^ crcByte 0#16 b := by
  unfold crcByte
  rw [xorLinear_crcShift.iterate 8, BitVec.zero_xor]

/-- A remainder goes through a word by shifts alone. -/
theorem crcFrom_eq (bytes : List UInt8) :
    crcFrom c bytes = crcShift^[8 * bytes.length] c ^^^ crc16 bytes := by
  induction bytes generalizing c with
  | nil => exact BitVec.xor_zero.symm
  | cons b bytes ih =>
    have hword : crc16 (b :: bytes) =
        crcShift^[8 * bytes.length] (crcByte 0#16 b) ^^^ crc16 bytes :=
      ih (crcByte 0#16 b)
    have hstep : crcFrom c (b :: bytes) = crcFrom (crcByte c b) bytes := rfl
    rw [hstep, ih, hword, crcByte_eq c, xorLinear_crcShift.iterate, BitVec.xor_assoc,
      ← Function.iterate_add_apply]
    rfl

/-- The check sum of the nine digits. -/
example : crc16 [49, 50, 51, 52, 53, 54, 55, 56, 57] = 0x31c3#16 := by decide +kernel

end Stardust.Core
