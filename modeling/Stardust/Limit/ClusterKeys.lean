import Mathlib.Data.List.TakeWhile
import Stardust.Core.Crc16
import Stardust.Limit.TokenLimit

/-!
# The keys of a limiter on a cluster

A cluster puts each key in a slot by the check sum of the key, or of the first part of it in braces
that is not empty, and rejects a script whose keys are in different slots. The two keys of a limiter
end differently, so that without such a part their slots differ by what the endings do to the check
sum of the limiter's key. That is the same for all but four of the 65536 check sums.
Keys are strings of octets.
-/

namespace Stardust.Limit

open Stardust.Core

/-- What stands between the first opening brace and the next closing one, if it is not empty. -/
def hashTag (key : List UInt8) : Option (List UInt8) :=
  match key.dropWhile (· ≠ 123) with
  | [] => none
  | _ :: rest =>
    let tag := rest.takeWhile (· ≠ 125)
    if 125 ∈ rest ∧ tag ≠ [] then some tag else none

/-- The slot of a key. -/
def slot (key : List UInt8) : Nat := (crc16 ((hashTag key).getD key)).toNat % 16384

/-- `:tokens` -/
def tokensSuffix : List UInt8 := [58, 116, 111, 107, 101, 110, 115]

/-- `:ts` -/
def tsSuffix : List UInt8 := [58, 116, 115]

/-- The keys that `reserveN` passes to the script. -/
def evalKeys (key : List UInt8) : List (List UInt8) := [key ++ tokensSuffix, key ++ tsSuffix]

/-- The keys are in one slot, which a cluster asks of the keys of a script. -/
def OneSlot (keys : List (List UInt8)) : Prop := ∀ k ∈ keys, ∀ k' ∈ keys, slot k = slot k'

instance (keys : List (List UInt8)) : Decidable (OneSlot keys) :=
  inferInstanceAs (Decidable (∀ k ∈ keys, ∀ k' ∈ keys, slot k = slot k'))

/-- `reserveN` with a client that was built with `UseCluster`: a script that is rejected leaves the
answer to the limiter's own bucket. -/
def TokenLimiter.reserveNOnCluster (tl : TokenLimiter) (keys : Option Bucket) (now : ℚ) (n : Int) :
    Bool × TokenLimiter × Option (Option Bucket) :=
  if OneSlot (evalKeys tl.key.toUTF8.toList) then tl.reserveN (some keys) now n
  else ((tl.localAllow now n).1, (tl.localAllow now n).2, some keys)

variable {key suffix : List UInt8}

/-- An ending without braces does not change what stands in braces. -/
theorem hashTag_append (hopen : 123 ∉ suffix) (hclose : 125 ∉ suffix) :
    hashTag (key ++ suffix) = hashTag key := by
  have hends : suffix.dropWhile (· ≠ 123) = [] := by
    rw [List.dropWhile_eq_nil_iff]
    intro b hb
    exact decide_eq_true fun heq => hopen (heq ▸ hb)
  unfold hashTag
  rw [List.dropWhile_append, hends]
  cases hkey : key.dropWhile (· ≠ 123) with
  | nil => rfl
  | cons brace rest =>
    simp only [List.isEmpty_cons, Bool.false_eq_true, if_false, List.cons_append, List.mem_append,
      hclose, or_false]
    by_cases hrest : 125 ∈ rest
    · obtain ⟨tag, after, rfl, htag⟩ := List.eq_append_cons_of_mem hrest
      have hpass : ∀ b ∈ tag, decide (b ≠ 125) = true := fun b hb =>
        decide_eq_true fun heq => htag (heq ▸ hb)
      have hstop : ∀ after, (tag ++ 125 :: after).takeWhile (· ≠ 125) = tag := by
        intro after
        rw [List.takeWhile_append_of_pos hpass, List.takeWhile_cons_of_neg (by decide),
          List.append_nil]
      rw [List.append_assoc, List.cons_append, hstop, hstop]
    · simp [hrest]

/-- How the two endings move the slot apart, for a check sum of the limiter's key. -/
def slotShift (c : BitVec 16) : BitVec 14 :=
  (crcShift^[56] c ^^^ crcShift^[24] c).setWidth 14

/-- What takes the difference of the slots back to the check sum, by elimination. -/
def unshift : BitVec 14 → BitVec 16 :=
  select 0 [0x184a, 0x3094, 0x3db7, 0x27f1, 0x137d, 0x2c25, 0x0e0a, 0x1c14, 0x32f7, 0x33ae, 0x311c,
    0x3478, 0x3eb0, 0x2b20]

private theorem xorLinear_slotShift : XorLinear slotShift :=
  XorLinear.setWidth.comp ((xorLinear_crcShift.iterate 56).xor (xorLinear_crcShift.iterate 24))

/-- The difference of the slots determines the check sum up to its two highest bits. -/
theorem unshift_slotShift (d : BitVec 16) :
    unshift (slotShift d) = d ^^^ (bitSelect 14 0x5640#16 d ^^^ bitSelect 15 0xa65f#16 d) := by
  refine XorLinear.eq_of_twoPow ((XorLinear.select 0 _).comp xorLinear_slotShift)
    (XorLinear.id.xor ((XorLinear.bitSelect 14 0x5640#16).xor (XorLinear.bitSelect 15 0xa65f#16)))
    ?_ d
  decide +kernel

/-- The check sums whose slots are not moved apart. -/
theorem eq_of_slotShift_eq_zero {d : BitVec 16} (h : slotShift d = 0#14) :
    d = 0x0000#16 ∨ d = 0x5640#16 ∨ d = 0xa65f#16 ∨ d = 0xf01f#16 := by
  have hunshift : unshift 0#14 = 0#16 := (XorLinear.select 0 _).zero
  have hback := unshift_slotShift d
  rw [h, hunshift, eq_comm, BitVec.xor_eq_zero_iff, bitSelect, bitSelect] at hback
  rw [hback]
  split <;> split <;> decide +kernel

/-- The check sums for which the endings make up for their own difference. -/
def meetingSums : List (BitVec 16) := [0x0059#16, 0x5619#16, 0xa606#16, 0xf046#16]

private theorem mem_meetingSums {c : BitVec 16} :
    c ∈ meetingSums ↔ c = 0x0059#16 ∨ c = 0x5619#16 ∨ c = 0xa606#16 ∨ c = 0xf046#16 := by
  simp [meetingSums]

private theorem endings_apart :
    (crc16 tokensSuffix ^^^ crc16 tsSuffix).setWidth 14 = 0x0c51#14 := by
  decide +kernel

private theorem slotShift_of_meeting {c : BitVec 16} (h : c ∈ meetingSums) :
    slotShift c = 0x0c51#14 := by
  rcases mem_meetingSums.mp h with rfl | rfl | rfl | rfl
  · decide +kernel
  · decide +kernel
  · decide +kernel
  · decide +kernel

private theorem slotShift_eq_iff (c : BitVec 16) : slotShift c = 0x0c51#14 ↔ c ∈ meetingSums := by
  refine ⟨fun h => ?_, slotShift_of_meeting⟩
  have hone : slotShift 0x0059#16 = 0x0c51#14 := slotShift_of_meeting List.mem_cons_self
  have hzero := eq_of_slotShift_eq_zero (xorLinear_slotShift.eq_zero_of_eq (h.trans hone.symm))
  have hback : ∀ {d}, c ^^^ 0x0059#16 = d ^^^ 0x0059#16 → c = d := (BitVec.xor_left_inj _).mp
  rw [mem_meetingSums]
  rcases hzero with hd | hd | hd | hd
  · exact .inl (hback hd)
  · exact .inr (.inl (hback hd))
  · exact .inr (.inr (.inl (hback hd)))
  · exact .inr (.inr (.inr (hback hd)))

/-- Slots are equal when the low bits of the check sums are. -/
theorem mod_eq_mod_iff (a b : BitVec 16) :
    a.toNat % 16384 = b.toNat % 16384 ↔ a.setWidth 14 = b.setWidth 14 := by
  rw [← BitVec.toNat_inj, BitVec.toNat_setWidth, BitVec.toNat_setWidth]

/-- After a key with the check sum `c` the two endings lead to the same slot for four `c`. -/
theorem crcFrom_mod_eq_iff (c : BitVec 16) :
    (crcFrom c tokensSuffix).toNat % 16384 = (crcFrom c tsSuffix).toNat % 16384 ↔
      c ∈ meetingSums := by
  rw [mod_eq_mod_iff, ← slotShift_eq_iff, ← endings_apart, crcFrom_eq, crcFrom_eq,
    BitVec.setWidth_xor, BitVec.setWidth_xor, xor_eq_xor_iff, ← BitVec.setWidth_xor,
    ← BitVec.setWidth_xor]
  rfl

/-- The keys of a limiter are in one slot exactly when its key has a part in braces that is not
empty, or one of four check sums. -/
theorem eval_keys_in_one_slot_iff (key : List UInt8) :
    OneSlot (evalKeys key) ↔
      (hashTag key).isSome ∨ crc16 key ∈ meetingSums := by
  have htokens : hashTag (key ++ tokensSuffix) = hashTag key :=
    hashTag_append (by decide) (by decide)
  have hts : hashTag (key ++ tsSuffix) = hashTag key := hashTag_append (by decide) (by decide)
  have hpair : OneSlot (evalKeys key) ↔ slot (key ++ tokensSuffix) = slot (key ++ tsSuffix) := by
    simp [OneSlot, evalKeys, eq_comm]
  rw [hpair, slot, slot, htokens, hts]
  cases hashTag key with
  | some tag => exact iff_of_true rfl (.inl rfl)
  | none =>
    rw [Option.getD_none, Option.getD_none, crc16_append, crc16_append, crcFrom_mod_eq_iff]
    simp

/-- The keys of the limiter `api` are in two slots. On a cluster two hosts, each with its own
bucket, are both given the whole burst, and nothing is written under the keys. -/
theorem api_keys_in_two_slots :
    slot ([97, 112, 105] ++ tokensSuffix) = 8036 ∧ slot ([97, 112, 105] ++ tsSuffix) = 9622 ∧
      ¬ OneSlot (evalKeys [97, 112, 105]) ∧
      (newTokenLimiter 1 10 "api" 0).reserveNOnCluster none 0 10 =
        (true, { newTokenLimiter 1 10 "api" 0 with localTokens := 0 }, some none) := by
  decide +kernel

end Stardust.Limit
