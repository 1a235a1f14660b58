import Mathlib.Algebra.Ring.Int.Defs
import Mathlib.Data.List.Basic
import Mathlib.Data.List.TakeWhile
import Stardust.Core.Text

/-!
# Addresses and the internal ranges

`CheckIp` accepts what `net.ParseIP` accepts, IPv4 in decimal and IPv6 in all its forms, while
`NetAToN` takes an address apart at its dots. The two agree on IPv4 only: an IPv6 address with an
embedded IPv4 one is read as some external address, and one without dots makes `NetAToN` panic.
-/

namespace Stardust.Utils

open Stardust.Core

/-- The fields of an IPv4 address in the library's parser: the octets so far, the value and the
number of digits of the current one. No digit before a dot means that the text starts with the
dot or has two in a row. -/
def parseIPv4Fields (fields : List Nat) (val digLen : Nat) : List Char → Option (List Nat)
  | [] => if fields.length < 3 then none else some (fields ++ [val])
  | c :: rest =>
    if c.isDigit then
      if digLen = 1 ∧ val = 0 then none
      else if val * 10 + digitValue c > 255 then none
      else parseIPv4Fields fields (val * 10 + digitValue c) (digLen + 1) rest
    else if c = '.' then
      if digLen = 0 ∨ rest = [] then none
      else if fields.length = 3 then none
      else parseIPv4Fields (fields ++ [val]) 0 0 rest
    else none

/-- The two groups that an embedded IPv4 address makes. -/
def packOctets : List Nat → List Nat
  | [a, b, c, d] => [a * 256 + b, c * 256 + d]
  | _ => []

/-- The groups of an IPv6 address in the library's parser, with room for a number of them, the
groups so far and the place of the ellipsis. The text that is left over is returned. -/
def parseGroups : Nat → List Nat → Option Nat → List Char →
    Option (List Nat × Option Nat × List Char)
  | 0, groups, ellipsis, s => some (groups, ellipsis, s)
  | room + 1, groups, ellipsis, s =>
    let digits := s.takeWhile fun c => (hexValue c).isSome
    let acc := digits.foldl (fun acc c => acc * 16 + (hexValue c).getD 0) 0
    if digits.length > 4 then none
    else if digits = [] then none
    else
      match s.dropWhile fun c => (hexValue c).isSome with
      | [] => some (groups ++ [acc], ellipsis, [])
      | '.' :: _ =>
        if ellipsis = none ∧ groups.length ≠ 6 then none
        else if groups.length + 2 > 8 then none
        else
          (parseIPv4Fields [] 0 0 s).map fun octets => (groups ++ packOctets octets, ellipsis, [])
      | ':' :: [] => none
      | ':' :: ':' :: rest =>
        if ellipsis ≠ none then none
        else if rest = [] then some (groups ++ [acc], some (groups.length + 1), [])
        else parseGroups room (groups ++ [acc]) (some (groups.length + 1)) rest
      | ':' :: rest => parseGroups room (groups ++ [acc]) ellipsis rest
      | _ => none

/-- Fill the ellipsis with zeros. -/
def expandGroups : List Nat × Option Nat × List Char → Option (List Nat)
  | (groups, ellipsis, rest) =>
    if rest ≠ [] then none
    else if groups.length < 8 then
      ellipsis.map fun e => groups.take e ++ List.replicate (8 - groups.length) 0 ++ groups.drop e
    else if ellipsis ≠ none then none
    else some groups

/-- The groups of an IPv6 address without a zone. -/
def parseIPv6 (s : List Char) : Option (List Nat) :=
  if '%' ∈ s then none
  else
    match s with
    | ':' :: ':' :: [] => some (List.replicate 8 0)
    | ':' :: ':' :: rest => (parseGroups 8 [] (some 0) rest).bind expandGroups
    | _ => (parseGroups 8 [] none s).bind expandGroups

/-- The first character that tells the form of an address. -/
def formOf (s : List Char) : Option Char := s.find? fun c => c = '.' ∨ c = ':' ∨ c = '%'

variable (ipStr : String)

/-- The eight groups of an address; an IPv4 address is mapped into IPv6. -/
def parseIP : Option (List Nat) :=
  if formOf ipStr.toList = some '.' then
    (parseIPv4Fields [] 0 0 ipStr.toList).map fun octets =>
      [0, 0, 0, 0, 0, 65535] ++ packOctets octets
  else if formOf ipStr.toList = some ':' then parseIPv6 ipStr.toList
  else none

/-- The text is an address. -/
def checkIp : Bool := (parseIP ipStr).isSome

/-- The number of `strconv.Atoi` when its error is ignored: zero for what is no number, and the
nearest number in range for one that is out of range. -/
def atoi (s : List Char) : Int := parseInt 64 s

/-- An address as a number of 64 bits, absent where the source indexes past the parts. -/
def netAToN : Option Int :=
  match ipStr.toList.splitOn '.' with
  | b0 :: b1 :: b2 :: b3 :: _ =>
    some (Int.bmod (atoi b0 * 2 ^ 24 + atoi b1 * 2 ^ 16 + atoi b2 * 2 ^ 8 + atoi b3) (2 ^ 64))
  | _ => none

/-- Whether an address is in the internal ranges, absent where the source panics. -/
def isInnerIp : Option Bool :=
  if checkIp ipStr = false then some false
  else do
    let inputIpNum ← netAToN ipStr
    let innerIpA ← netAToN "10.255.255.255"
    let innerIpB ← netAToN "172.16.255.255"
    let innerIpC ← netAToN "192.168.255.255"
    let innerIpD ← netAToN "100.64.255.255"
    let innerIpF ← netAToN "127.255.255.255"
    some (inputIpNum >>> (24 : Nat) = innerIpA >>> (24 : Nat) ∨
      inputIpNum >>> (20 : Nat) = innerIpB >>> (20 : Nat) ∨
      inputIpNum >>> (16 : Nat) = innerIpC >>> (16 : Nat) ∨
      inputIpNum >>> (22 : Nat) = innerIpD >>> (22 : Nat) ∨
      inputIpNum >>> (24 : Nat) = innerIpF >>> (24 : Nat))

/-- The internal ranges 10/8, 172.16/12, 192.168/16, 100.64/10 and 127/8 by their first octets. -/
def Inner (a b : Nat) : Prop :=
  a = 10 ∨ a = 172 ∧ 16 ≤ b ∧ b ≤ 31 ∨ a = 192 ∧ b = 168 ∨ a = 100 ∧ 64 ≤ b ∧ b ≤ 127 ∨ a = 127

instance (a b : Nat) : Decidable (Inner a b) := inferInstanceAs (Decidable (_ ∨ _))

/-- The number that digits make after those of a value. -/
def decimalFrom (value : Nat) (digits : List Char) : Nat :=
  digits.foldl (fun value c => value * 10 + digitValue c) value

/-- Digits that make an octet. -/
structure IsOctet (digits : List Char) : Prop where
  digit : ∀ c ∈ digits, c.isDigit = true
  nonempty : digits ≠ []
  le : decimalFrom 0 digits ≤ 255

/-- The text that the parser has still to read at some point of a field, taken apart at its
dots. -/
structure FieldParts (fields : List Nat) (val digLen : Nat) (s part : List Char)
    (rest : List (List Char)) (out : List Nat) : Prop where
  split : s.splitOn '.' = part :: rest
  digit : ∀ c ∈ part, c.isDigit = true
  nonempty : digLen = 0 → s ≠ [] → part ≠ []
  le : decimalFrom val part ≤ 255
  octets : ∀ digits ∈ rest, IsOctet digits
  count : fields.length + rest.length = 3
  out : out = fields ++ decimalFrom val part :: rest.map (decimalFrom 0)

private theorem splitOn_cons_dot (s : List Char) :
    ('.' :: s).splitOn '.' = [] :: s.splitOn '.' := by
  simp [List.splitOn_eq_splitOnP, List.splitOnP_cons_eq_if_modifyHead]

private theorem splitOn_cons_of_ne {c : Char} (hc : c ≠ '.') {s part : List Char}
    {rest : List (List Char)} (h : s.splitOn '.' = part :: rest) :
    (c :: s).splitOn '.' = (c :: part) :: rest := by
  rw [List.splitOn_eq_splitOnP] at h ⊢
  simp [List.splitOnP_cons_eq_if_modifyHead, hc, h]

variable {s : List Char}

/-- What the IPv4 parser accepts are four octets with dots between them. -/
theorem parseIPv4Fields_parts {fields : List Nat} {val digLen : Nat} {out : List Nat}
    (hfields : fields.length ≤ 3) (hval : val ≤ 255)
    (h : parseIPv4Fields fields val digLen s = some out) :
    ∃ part rest, FieldParts fields val digLen s part rest out := by
  induction s generalizing fields val digLen with
  | nil =>
    simp only [parseIPv4Fields] at h
    split at h
    · cases h
    · cases h
      refine ⟨[], [], rfl, nofun, fun _ hs => absurd rfl hs, hval, nofun, ?_, rfl⟩
      simp only [List.length_nil]
      omega
  | cons c s ih =>
    rw [parseIPv4Fields] at h
    split at h
    · rename_i hdigit
      split at h
      · cases h
      · split at h
        · cases h
        · rename_i hle
          obtain ⟨part, rest, hparts⟩ := ih hfields (not_lt.mp hle) h
          have hdot : c ≠ '.' := by
            rintro rfl
            cases hdigit
          refine ⟨c :: part, rest, splitOn_cons_of_ne hdot hparts.split, ?_, nofun, hparts.le,
            hparts.octets, hparts.count, hparts.out⟩
          intro c' hc'
          rcases List.mem_cons.mp hc' with rfl | hc'
          · exact hdigit
          · exact hparts.digit c' hc'
    · split at h
      · rename_i hdot
        split at h
        · cases h
        · rename_i hmore
          rw [not_or] at hmore
          split at h
          · cases h
          · rename_i hcount
            have hlength : (fields ++ [val]).length ≤ 3 := by
              rw [List.length_append, List.length_singleton]
              omega
            obtain ⟨part, rest, hparts⟩ := ih hlength (Nat.zero_le _) h
            subst hdot
            refine ⟨[], part :: rest, ?_, nofun, ?_, hval, ?_, ?_, ?_⟩
            · rw [splitOn_cons_dot, hparts.split]
            · exact fun hzero => absurd hzero hmore.1
            · intro digits hmem
              rcases List.mem_cons.mp hmem with rfl | hmem
              · exact ⟨hparts.digit, hparts.nonempty rfl hmore.2, hparts.le⟩
              · exact hparts.octets digits hmem
            · have hcount' := hparts.count
              simp only [List.length_append, List.length_cons, List.length_nil] at hcount' ⊢
              omega
            · rw [hparts.out, List.append_assoc]
              rfl
      · cases h

/-- The four parts of an IPv4 address. -/
theorem parseIPv4_parts {out : List Nat} (h : parseIPv4Fields [] 0 0 s = some out) :
    ∃ b0 b1 b2 b3, s.splitOn '.' = [b0, b1, b2, b3] ∧
      IsOctet b0 ∧ IsOctet b1 ∧ IsOctet b2 ∧ IsOctet b3 ∧
      out = [decimalFrom 0 b0, decimalFrom 0 b1, decimalFrom 0 b2, decimalFrom 0 b3] := by
  obtain ⟨b0, rest, hparts⟩ := parseIPv4Fields_parts (Nat.zero_le _) (Nat.zero_le _) h
  have hs : s ≠ [] := by
    rintro rfl
    cases h
  have hcount := hparts.count
  rw [List.length_nil, Nat.zero_add, List.length_eq_three] at hcount
  obtain ⟨b1, b2, b3, rfl⟩ := hcount
  have hoctets := hparts.octets
  simp only [List.forall_mem_cons] at hoctets
  exact ⟨b0, b1, b2, b3, hparts.split, ⟨hparts.digit, hparts.nonempty rfl hs, hparts.le⟩,
    hoctets.1, hoctets.2.1, hoctets.2.2.1, hparts.out⟩

/-- An octet is read as its value. -/
theorem IsOctet.atoi_eq {digits : List Char} (h : IsOctet digits) :
    atoi digits = decimalFrom 0 digits := by
  have hparse : parseDigits digits = some (decimalFrom 0 digits) := by
    rw [parseDigits, if_pos ⟨h.nonempty, List.all_eq_true.mpr h.digit⟩]
    simp only [decimalFrom, digitValue, Nat.mul_comm 10]
  have hle := h.le
  rw [atoi, parseInt_of_digits hparse]
  omega

/-- What has a colon in it is no number. -/
theorem atoi_eq_zero_of_colon (h : ':' ∈ s) : atoi s = 0 := by
  unfold atoi parseInt
  split
  rename_i negative digits hsign
  have hcolon : ':' ∈ digits := by
    split at hsign
    · cases hsign
      simpa using h
    · cases hsign
      simpa using h
    · cases hsign
      exact h
  have hnone : parseDigits digits = none :=
    if_neg fun hdigits => absurd (List.all_eq_true.mp hdigits.2 ':' hcolon) (by decide)
  rw [hnone]

/-- The five comparisons on an address by its number. -/
def innerNumber (n : Int) : Bool :=
  n >>> (24 : Nat) = 10 ∨ n >>> (20 : Nat) = 2753 ∨ n >>> (16 : Nat) = 49320 ∨
    n >>> (22 : Nat) = 401 ∨ n >>> (24 : Nat) = 127

/-- The numbers that an address is compared with. -/
theorem isInnerIp_eq :
    isInnerIp ipStr =
      if checkIp ipStr = false then some false else (netAToN ipStr).map innerNumber := by
  have hA : netAToN "10.255.255.255" = some 184549375 := by decide +kernel
  have hB : netAToN "172.16.255.255" = some 2886795263 := by decide +kernel
  have hC : netAToN "192.168.255.255" = some 3232301055 := by decide +kernel
  have hD : netAToN "100.64.255.255" = some 1681981439 := by decide +kernel
  have hF : netAToN "127.255.255.255" = some 2147483647 := by decide +kernel
  unfold isInnerIp
  rw [hA, hB, hC, hD, hF]
  cases netAToN ipStr <;> rfl

/-- The number of an IPv4 address. -/
def addressNumber (a b c d : Nat) : Int :=
  (a : Int) * 2 ^ 24 + (b : Int) * 2 ^ 16 + (c : Int) * 2 ^ 8 + (d : Int)

/-- Such a number has 64 bits. -/
theorem bmod_addressNumber {a b c d : Nat} (ha : a ≤ 255) (hb : b ≤ 255) (hc : c ≤ 255)
    (hd : d ≤ 255) : Int.bmod (addressNumber a b c d) (2 ^ 64) = addressNumber a b c d := by
  unfold addressNumber
  exact Int.bmod_eq_of_le (by omega) (by omega)

/-- The comparisons say whether an address is in the internal ranges. -/
theorem innerNumber_eq {a b c d : Nat} (ha : a ≤ 255) (hb : b ≤ 255) (hc : c ≤ 255) (hd : d ≤ 255) :
    innerNumber (addressNumber a b c d) = decide (Inner a b) := by
  unfold innerNumber
  rw [decide_eq_decide]
  have h24 : addressNumber a b c d >>> (24 : Nat) = a := by
    rw [addressNumber, Int.shiftRight_eq_div_pow]
    omega
  have h22 : addressNumber a b c d >>> (22 : Nat) = 4 * a + b / 64 := by
    rw [addressNumber, Int.shiftRight_eq_div_pow]
    omega
  have h20 : addressNumber a b c d >>> (20 : Nat) = 16 * a + b / 16 := by
    rw [addressNumber, Int.shiftRight_eq_div_pow]
    omega
  have h16 : addressNumber a b c d >>> (16 : Nat) = 256 * a + b := by
    rw [addressNumber, Int.shiftRight_eq_div_pow]
    omega
  have hB : (16 * a + b / 16 : Int) = 2753 ↔ a = 172 ∧ 16 ≤ b ∧ b ≤ 31 := by omega
  have hC : (256 * a + b : Int) = 49320 ↔ a = 192 ∧ b = 168 := by omega
  have hD : (4 * a + b / 64 : Int) = 401 ↔ a = 100 ∧ 64 ≤ b ∧ b ≤ 127 := by omega
  rw [h24, h22, h20, h16, hB, hC, hD]
  unfold Inner
  norm_cast

/-- The first part of a text without the first dot and what follows. -/
theorem splitOn_eq_takeWhile {s part : List Char} {rest : List (List Char)}
    (h : s.splitOn '.' = part :: rest) : part = s.takeWhile (· ≠ '.') := by
  induction s generalizing part rest with
  | nil =>
    cases h
    rfl
  | cons c s ih =>
    by_cases hc : c = '.'
    · subst hc
      rw [splitOn_cons_dot] at h
      cases h
      rfl
    · cases hs : s.splitOn '.' with
      | nil =>
        rw [List.splitOn_eq_splitOnP] at hs
        exact absurd hs (List.splitOnP_ne_nil _ _)
      | cons part' rest' =>
        rw [splitOn_cons_of_ne hc hs] at h
        cases h
        rw [ih hs, List.takeWhile_cons_of_pos (by simp [hc])]

/-- A text without a dot before another one extends its first part. -/
theorem splitOn_append {before s part : List Char} {rest : List (List Char)}
    (hbefore : '.' ∉ before) (h : s.splitOn '.' = part :: rest) :
    (before ++ s).splitOn '.' = (before ++ part) :: rest := by
  induction before with
  | nil => exact h
  | cons c before ih =>
    rw [List.mem_cons, not_or] at hbefore
    exact splitOn_cons_of_ne (Ne.symm hbefore.1) (ih hbefore.2)

/-- A text has no dot, or ends in an IPv4 address that has all of its dots. -/
def DotsInIPv4 (s : List Char) : Prop :=
  '.' ∉ s ∨ ∃ before tail octets, s = before ++ tail ∧ '.' ∉ before ∧
    parseIPv4Fields [] 0 0 tail = some octets

private theorem DotsInIPv4.append {before s : List Char} (h : DotsInIPv4 s)
    (hbefore : '.' ∉ before) : DotsInIPv4 (before ++ s) := by
  rcases h with hnone | ⟨before', tail, octets, rfl, hbefore', hparse⟩
  · exact .inl (by simp [hbefore, hnone])
  · refine .inr ⟨before ++ before', tail, octets, (List.append_assoc ..).symm, ?_, hparse⟩
    simp [hbefore, hbefore']

/-- What the IPv6 parser reads has dots only in an embedded IPv4 address at the end. -/
theorem parseGroups_dots {room : Nat} {groups groups' : List Nat}
    {ellipsis ellipsis' : Option Nat}
    (h : parseGroups room groups ellipsis s = some (groups', ellipsis', [])) : DotsInIPv4 s := by
  induction room generalizing groups ellipsis s with
  | zero =>
    cases h
    exact .inl nofun
  | succ room ih =>
    have hsplit := List.takeWhile_append_dropWhile (p := fun c => (hexValue c).isSome) (l := s)
    have hdigits : '.' ∉ s.takeWhile fun c => (hexValue c).isSome := by
      intro hdot
      have := List.mem_takeWhile_imp hdot
      cases this
    simp only [parseGroups] at h
    split at h
    · cases h
    · split at h
      · cases h
      · split at h
        · rename_i hrest
          rw [hrest, List.append_nil] at hsplit
          rw [← hsplit]
          exact .inl hdigits
        · split at h
          · cases h
          · split at h
            · cases h
            · obtain ⟨octets, hparse, -⟩ := Option.map_eq_some_iff.mp h
              exact .inr ⟨[], s, octets, rfl, nofun, hparse⟩
        · cases h
        · rename_i rest hrest
          split at h
          · cases h
          · have htail : DotsInIPv4 rest := by
              split at h
              · rename_i hnil
                rw [hnil]
                exact .inl nofun
              · exact ih h
            have hcolons : DotsInIPv4 ([':', ':'] ++ rest) := htail.append (by decide)
            rw [← hsplit, hrest]
            exact hcolons.append hdigits
        · rename_i rest _ _ hrest
          have hcolon : DotsInIPv4 ([':'] ++ rest) := (ih h).append (by decide)
          rw [← hsplit, hrest]
          exact hcolon.append hdigits
        · cases h

/-- The parser reads the whole text. -/
theorem rest_of_expandGroups {groups groups' : List Nat} {ellipsis : Option Nat} {rest : List Char}
    (h : expandGroups (groups', ellipsis, rest) = some groups) : rest = [] := by
  simp only [expandGroups] at h
  split at h
  · cases h
  · rename_i hrest
    exact not_not.mp hrest

/-- An IPv6 address has no dot, or four parts of which the first has what stands before the first
dot and the others are octets. -/
theorem parseIPv6_parts {groups : List Nat} (h : parseIPv6 s = some groups) (hdot : '.' ∈ s) :
    ∃ b1 b2 b3, s.splitOn '.' = [s.takeWhile (· ≠ '.'), b1, b2, b3] ∧
      IsOctet b1 ∧ IsOctet b2 ∧ IsOctet b3 := by
  have hdots : DotsInIPv4 s := by
    unfold parseIPv6 at h
    split at h
    · cases h
    · split at h
      · left
        decide
      · rename_i rest _
        obtain ⟨⟨groups', ellipsis', rest'⟩, hgroups, hexpand⟩ := Option.bind_eq_some_iff.mp h
        cases rest_of_expandGroups hexpand
        have htail := parseGroups_dots hgroups
        have hcolons : '.' ∉ [':', ':'] := by decide
        exact htail.append hcolons
      · obtain ⟨⟨groups', ellipsis', rest'⟩, hgroups, hexpand⟩ := Option.bind_eq_some_iff.mp h
        cases rest_of_expandGroups hexpand
        exact parseGroups_dots hgroups
  rcases hdots with hnone | ⟨before, tail, octets, rfl, hbefore, hparse⟩
  · exact absurd hdot hnone
  · obtain ⟨b0, b1, b2, b3, hsplit, -, h1, h2, h3, -⟩ := parseIPv4_parts hparse
    have hall := splitOn_append hbefore hsplit
    rw [← splitOn_eq_takeWhile hall]
    exact ⟨b1, b2, b3, hall, h1, h2, h3⟩

/-- What an address looks like. -/
inductive AddressForm where
  | notAddress
  | v4 (a b c d : Nat)
  /-- IPv6 with an embedded IPv4 address. -/
  | mixed
  | v6
  deriving DecidableEq

/-- The form of the text. -/
def addressForm : AddressForm :=
  if formOf ipStr.toList = some '.' then
    match parseIPv4Fields [] 0 0 ipStr.toList with
    | some [a, b, c, d] => .v4 a b c d
    | _ => .notAddress
  else if formOf ipStr.toList = some ':' then
    if (parseIPv6 ipStr.toList).isNone then .notAddress
    else if '.' ∈ ipStr.toList then .mixed
    else .v6
  else .notAddress

/-- The answer for an address of some form, absent where the source panics. -/
def AddressForm.inner : AddressForm → Option Bool
  | .notAddress => some false
  | .v4 a b _ _ => some (decide (Inner a b))
  | .mixed => some false
  | .v6 => none

/-- A colon that comes before all dots stands before the first one. -/
theorem colon_mem_takeWhile (h : formOf s = some ':') : ':' ∈ s.takeWhile (· ≠ '.') := by
  obtain ⟨-, before, after, rfl, hbefore⟩ := List.find?_eq_some_iff_append.mp h
  have hdot : ∀ c ∈ before, decide (c ≠ '.') = true := by
    intro c hc
    have hform := hbefore c hc
    by_contra hne
    simp only [ne_eq, decide_not, Bool.not_eq_eq_eq_not, Bool.not_true, Bool.not_eq_false,
      decide_eq_true_eq] at hne
    subst hne
    cases hform
  rw [List.takeWhile_append_of_pos hdot, List.takeWhile_cons_of_pos (by decide)]
  exact List.mem_append_right _ (List.mem_cons_self ..)

private theorem isInnerIp_of_v4 {ipStr : String} (hform : formOf ipStr.toList = some '.') :
    isInnerIp ipStr = (addressForm ipStr).inner := by
  rw [isInnerIp_eq, checkIp, parseIP, addressForm, if_pos hform, if_pos hform]
  cases hparse : parseIPv4Fields [] 0 0 ipStr.toList with
  | none => rfl
  | some out =>
    obtain ⟨b0, b1, b2, b3, hsplit, h0, h1, h2, h3, rfl⟩ := parseIPv4_parts hparse
    have hnumber : netAToN ipStr = some (addressNumber (decimalFrom 0 b0) (decimalFrom 0 b1)
        (decimalFrom 0 b2) (decimalFrom 0 b3)) := by
      rw [netAToN, hsplit, ← bmod_addressNumber h0.le h1.le h2.le h3.le]
      simp only [h0.atoi_eq, h1.atoi_eq, h2.atoi_eq, h3.atoi_eq, addressNumber]
    rw [hnumber]
    exact congrArg some (innerNumber_eq h0.le h1.le h2.le h3.le)

private theorem isInnerIp_of_v6 {ipStr : String} (hform : formOf ipStr.toList = some ':') :
    isInnerIp ipStr = (addressForm ipStr).inner := by
  have hdot : formOf ipStr.toList ≠ some '.' := by
    rw [hform]
    decide
  rw [isInnerIp_eq, checkIp, parseIP, addressForm, if_neg hdot, if_neg hdot, if_pos hform,
    if_pos hform]
  cases hparse : parseIPv6 ipStr.toList with
  | none => rfl
  | some groups =>
    by_cases hdot : '.' ∈ ipStr.toList
    · obtain ⟨b1, b2, b3, hsplit, h1, h2, h3⟩ := parseIPv6_parts hparse hdot
      have hzero := atoi_eq_zero_of_colon (colon_mem_takeWhile hform)
      have hnumber : netAToN ipStr = some (addressNumber 0 (decimalFrom 0 b1) (decimalFrom 0 b2)
          (decimalFrom 0 b3)) := by
        rw [netAToN, hsplit, ← bmod_addressNumber (Nat.zero_le _) h1.le h2.le h3.le]
        simp only [hzero, h1.atoi_eq, h2.atoi_eq, h3.atoi_eq, addressNumber, Nat.cast_zero]
      rw [hnumber, Option.map_some, innerNumber_eq (Nat.zero_le _) h1.le h2.le h3.le, if_pos hdot]
      rfl
    · have hnumber : netAToN ipStr = none := by
        simp only [netAToN, List.splitOn_eq_singleton hdot]
      rw [hnumber, if_neg hdot]
      rfl

/-- `IsInnerIp` tells the internal IPv4 addresses, takes mixed addresses for external ones, and
panics on the other IPv6 addresses. -/
theorem isInnerIp_eq_inner : isInnerIp ipStr = (addressForm ipStr).inner := by
  by_cases hv4 : formOf ipStr.toList = some '.'
  · exact isInnerIp_of_v4 hv4
  · by_cases hv6 : formOf ipStr.toList = some ':'
    · exact isInnerIp_of_v6 hv6
    · rw [isInnerIp_eq, checkIp, parseIP, addressForm, if_neg hv4, if_neg hv4, if_neg hv6,
        if_neg hv6]
      rfl

example : isInnerIp "172.31.0.1" = some true := by decide +kernel

example : isInnerIp "::ffff:10.0.0.1" = some false := by decide +kernel

example : isInnerIp "fe80::1" = none := by decide +kernel

end Stardust.Utils
