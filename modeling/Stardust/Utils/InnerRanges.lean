import Mathlib.Algebra.Group.Nat.Defs
import Stardust.Utils.Address

/-!
# Which addresses are internal, and which cannot be asked about

On IPv4 addresses in the usual form, `IsInnerIp` decides membership in five blocks. Every text has
an answer but those that `net.ParseIP` accepts and that have no dot, which are the IPv6 addresses
without an embedded IPv4 one; on these it panics, and with it the middleware that asks.
-/

namespace Stardust.Utils

open Stardust.Core

/-- The text of an IPv4 address. -/
def dottedQuad (a b c d : Nat) : String :=
  toString a ++ "." ++ toString b ++ "." ++ toString c ++ "." ++ toString d

/-- An address as a number of 32 bits. -/
def address (a b c d : Nat) : Nat := ((a * 256 + b) * 256 + c) * 256 + d

/-- A block of addresses, by its first one and the number of bits that all of them share. -/
structure Block where
  base : Nat
  bits : Nat

/-- The addresses of a block. -/
def Block.Contains (block : Block) (addr : Nat) : Prop :=
  block.base ≤ addr ∧ addr < block.base + 2 ^ (32 - block.bits)

instance (block : Block) (addr : Nat) : Decidable (block.Contains addr) :=
  inferInstanceAs (Decidable (_ ∧ _))

/-- The blocks of internal addresses. -/
def innerBlocks : List Block :=
  [⟨address 10 0 0 0, 8⟩, ⟨address 172 16 0 0, 12⟩, ⟨address 192 168 0 0, 16⟩,
    ⟨address 100 64 0 0, 10⟩, ⟨address 127 0 0 0, 8⟩]

/-- The blocks are told by the first two octets. -/
theorem innerBlocks_contains_iff {a b c d : Nat} (ha : a ≤ 255) (hb : b ≤ 255) (hc : c ≤ 255)
    (hd : d ≤ 255) : (∃ block ∈ innerBlocks, block.Contains (address a b c d)) ↔ Inner a b := by
  simp only [innerBlocks, List.mem_cons, List.not_mem_nil, or_false, exists_eq_or_imp,
    exists_eq_left, Block.Contains, address, Inner]
  omega

section Reading

variable {fields : List Nat} {val digLen : Nat} {rest : List Char}

private theorem le_decimalFrom (val : Nat) (digits : List Char) : val ≤ decimalFrom val digits := by
  induction digits generalizing val with
  | nil => exact le_rfl
  | cons c digits ih =>
    have hnext := ih (val * 10 + digitValue c)
    change val ≤ decimalFrom (val * 10 + digitValue c) digits
    omega

/-- Digits after one that is not zero are read as long as the number is an octet. -/
theorem parseIPv4Fields_digits {digits : List Char} (hdigit : ∀ c ∈ digits, c.isDigit = true)
    (hval : val ≠ 0) (hle : decimalFrom val digits ≤ 255) :
    parseIPv4Fields fields val digLen (digits ++ rest) =
      parseIPv4Fields fields (decimalFrom val digits) (digLen + digits.length) rest := by
  induction digits generalizing val digLen with
  | nil => rfl
  | cons c digits ih =>
    rw [List.forall_mem_cons] at hdigit
    have hstep : decimalFrom val (c :: digits) = decimalFrom (val * 10 + digitValue c) digits := rfl
    rw [hstep] at hle ⊢
    have hsmall := (le_decimalFrom (val * 10 + digitValue c) digits).trans hle
    rw [List.cons_append, parseIPv4Fields, if_pos hdigit.1, if_neg (by tauto), if_neg (by omega),
      ih hdigit.2 (by omega) hle, List.length_cons, Nat.add_assoc, Nat.add_comm 1]

/-- The text of an octet: digits that make the number, without a zero in front of another one. -/
theorem toString_octet (n : Fin 256) : (∀ c ∈ (toString n.val).toList, c.isDigit = true) ∧
    decimalFrom 0 (toString n.val).toList = n ∧ (toString n.val).toList ≠ [] ∧
    ((toString n.val).toList = ['0'] ∨ (toString n.val).toList.head?.all (digitValue · ≠ 0)) := by
  have hall : ∀ k ∈ List.range 256, (toString k).toList.all Char.isDigit = true ∧
      decimalFrom 0 (toString k).toList = k ∧ (toString k).toList ≠ [] ∧
      ((toString k).toList = ['0'] ∨ (toString k).toList.head?.all (digitValue · ≠ 0)) := by
    decide +kernel
  obtain ⟨hdigit, hrest⟩ := hall n (List.mem_range.mpr n.isLt)
  exact ⟨List.all_eq_true.mp hdigit, hrest⟩

/-- The text of an octet is read as the octet. -/
theorem parseIPv4Fields_octet (n : Fin 256) :
    ∃ digLen, digLen ≠ 0 ∧ parseIPv4Fields fields 0 0 ((toString n.val).toList ++ rest) =
      parseIPv4Fields fields n digLen rest := by
  obtain ⟨hdigit, hvalue, hne, hzero⟩ := toString_octet n
  generalize (toString n.val).toList = text at hdigit hvalue hne hzero
  cases text with
  | nil => exact absurd rfl hne
  | cons c digits =>
    rw [List.forall_mem_cons] at hdigit
    have hle : decimalFrom 0 (c :: digits) ≤ 255 := by omega
    have hstep : decimalFrom 0 (c :: digits) = decimalFrom (digitValue c) digits := by
      rw [decimalFrom, List.foldl_cons, Nat.zero_mul, Nat.zero_add, decimalFrom]
    rw [hstep] at hvalue hle
    have hfirst := (le_decimalFrom (digitValue c) digits).trans hle
    have hread : parseIPv4Fields fields 0 0 (c :: digits ++ rest) =
        parseIPv4Fields fields (digitValue c) 1 (digits ++ rest) := by
      rw [List.cons_append, parseIPv4Fields, if_pos hdigit.1, if_neg (by simp),
        if_neg (by omega), Nat.zero_mul, Nat.zero_add, Nat.zero_add]
    rw [hread]
    rcases hzero with hzero | hhead
    · obtain ⟨rfl, rfl⟩ := List.cons.inj hzero
      rw [← hvalue]
      exact ⟨1, by decide, rfl⟩
    · have hpos : digitValue c ≠ 0 := by simpa using hhead
      refine ⟨1 + digits.length, by omega, ?_⟩
      rw [parseIPv4Fields_digits hdigit.2 hpos hle, hvalue]

/-- An octet and a dot make a field, if there is a text after them and room for another field. -/
theorem parseIPv4Fields_octet_dot (n : Fin 256) (hrest : rest ≠ []) (hroom : fields.length < 3) :
    parseIPv4Fields fields 0 0 ((toString n.val).toList ++ '.' :: rest) =
      parseIPv4Fields (fields ++ [n.val]) 0 0 rest := by
  obtain ⟨digLen, hdigLen, hread⟩ := parseIPv4Fields_octet n
  have hdot : ('.').isDigit = false := by decide
  rw [hread, parseIPv4Fields, hdot, if_neg (by simp), if_pos rfl, if_neg (by tauto),
    if_neg (by omega)]

private theorem parseIPv4Fields_octet_end (n : Fin 256) (hfields : fields.length = 3) :
    parseIPv4Fields fields 0 0 (toString n.val).toList = some (fields ++ [n.val]) := by
  obtain ⟨digLen, -, hread⟩ := parseIPv4Fields_octet n
  rw [List.append_nil] at hread
  rw [hread, parseIPv4Fields, if_neg (by omega)]

end Reading

private theorem toList_dottedQuad (a b c d : Nat) :
    (dottedQuad a b c d).toList = (toString a).toList ++ '.' :: ((toString b).toList ++
      '.' :: ((toString c).toList ++ '.' :: (toString d).toList)) := by
  simp [dottedQuad, String.toList_append]

/-- Four octets with dots between them are an IPv4 address. -/
theorem parseIPv4Fields_dottedQuad (a b c d : Fin 256) :
    parseIPv4Fields [] 0 0 (dottedQuad a b c d).toList = some [a.val, b.val, c.val, d.val] := by
  have hd : (toString d.val).toList ≠ [] := (toString_octet d).2.2.1
  rw [toList_dottedQuad, parseIPv4Fields_octet_dot a (by simp) (by simp),
    parseIPv4Fields_octet_dot b (by simp) (by simp), parseIPv4Fields_octet_dot c hd (by simp),
    parseIPv4Fields_octet_end d (by simp)]
  rfl

/-- The first character of an address in this form that tells forms apart is a dot. -/
theorem formOf_dottedQuad (a b c d : Fin 256) : formOf (dottedQuad a b c d).toList = some '.' := by
  have hdigit := (toString_octet a).1
  rw [toList_dottedQuad, formOf, List.find?_append, List.find?_eq_none.mpr]
  · rfl
  · intro c hc hform
    have hdigit := hdigit c hc
    simp only [Bool.decide_or, Bool.or_eq_true, decide_eq_true_eq] at hform
    rcases hform with rfl | rfl | rfl <;> cases hdigit

/-- On every IPv4 address, `IsInnerIp` returns whether the address lies in 10.0.0.0/8,
172.16.0.0/12, 192.168.0.0/16, 100.64.0.0/10 or 127.0.0.0/8. -/
theorem isInnerIp_dottedQuad (a b c d : Fin 256) :
    isInnerIp (dottedQuad a b c d) =
      some (decide (∃ block ∈ innerBlocks, block.Contains (address a b c d))) := by
  have hform : addressForm (dottedQuad a b c d) = .v4 a b c d := by
    rw [addressForm, if_pos (formOf_dottedQuad a b c d), parseIPv4Fields_dottedQuad]
  have hblocks := innerBlocks_contains_iff (Nat.lt_succ_iff.mp a.isLt) (Nat.lt_succ_iff.mp b.isLt)
    (Nat.lt_succ_iff.mp c.isLt) (Nat.lt_succ_iff.mp d.isLt)
  rw [isInnerIp_eq_inner, hform, AddressForm.inner, decide_eq_decide.mpr hblocks]

private theorem dot_mem_of_formOf {s : List Char} (h : formOf s = some '.') : '.' ∈ s :=
  List.mem_of_find?_eq_some h

/-- An address that `net.ParseIP` accepts has four parts between dots if it has a dot, and one
otherwise. -/
theorem length_splitOn_of_checkIp {ipStr : String} (h : checkIp ipStr = true) :
    (ipStr.toList.splitOn '.').length = if '.' ∈ ipStr.toList then 4 else 1 := by
  rw [checkIp, parseIP] at h
  by_cases hv4 : formOf ipStr.toList = some '.'
  · rw [if_pos hv4, Option.isSome_map] at h
    obtain ⟨out, hout⟩ := Option.isSome_iff_exists.mp h
    obtain ⟨b0, b1, b2, b3, hsplit, -⟩ := parseIPv4_parts hout
    rw [hsplit, if_pos (dot_mem_of_formOf hv4)]
    rfl
  · rw [if_neg hv4] at h
    by_cases hv6 : formOf ipStr.toList = some ':'
    · rw [if_pos hv6] at h
      obtain ⟨groups, hgroups⟩ := Option.isSome_iff_exists.mp h
      by_cases hdot : '.' ∈ ipStr.toList
      · obtain ⟨b1, b2, b3, hsplit, -⟩ := parseIPv6_parts hgroups hdot
        rw [hsplit, if_pos hdot]
        rfl
      · rw [List.splitOn_eq_singleton hdot, if_neg hdot]
        rfl
    · rw [if_neg hv6] at h
      cases h

/-- The IPv6 addresses without an embedded IPv4 one are what `net.ParseIP` accepts without a
dot. -/
theorem addressForm_eq_v6_iff (ipStr : String) :
    addressForm ipStr = .v6 ↔ checkIp ipStr = true ∧ '.' ∉ ipStr.toList := by
  rw [checkIp, parseIP, addressForm]
  by_cases hv4 : formOf ipStr.toList = some '.'
  · rw [if_pos hv4, if_pos hv4]
    refine iff_of_false ?_ fun h => h.2 (dot_mem_of_formOf hv4)
    split <;> simp
  · rw [if_neg hv4, if_neg hv4]
    by_cases hv6 : formOf ipStr.toList = some ':'
    · rw [if_pos hv6, if_pos hv6]
      cases parseIPv6 ipStr.toList with
      | none => simp
      | some groups => by_cases hdot : '.' ∈ ipStr.toList <;> simp [hdot]
    · rw [if_neg hv6, if_neg hv6]
      simp

/-- It panics for an address without a dot. -/
theorem isInnerIp_eq_none_iff (ipStr : String) :
    isInnerIp ipStr = none ↔ checkIp ipStr = true ∧ '.' ∉ ipStr.toList := by
  rw [isInnerIp_eq_inner, ← addressForm_eq_v6_iff]
  cases addressForm ipStr with
  | v6 => simp [AddressForm.inner]
  | notAddress => simp [AddressForm.inner]
  | v4 a b c d => simp [AddressForm.inner]
  | mixed => simp [AddressForm.inner]

end Stardust.Utils
