import Mathlib.Algebra.Order.Ring.Rat
import Mathlib.Algebra.Field.Rat
import Stardust.Core.Text

/-!
# Strings and numbers in JSON

Strings are written with the escapes that Go chooses, those for HTML among them, and read with all
escapes of JSON. A half of a surrogate pair reads as the replacement character. Numbers are read
as the exact values of their decimals.
-/

namespace Stardust.Core.Json

/-- The lower-case hexadecimal digit. -/
def hexDigit (n : Nat) : Char := if n < 10 then Char.ofNat (48 + n) else Char.ofNat (87 + n)

/-- Four hexadecimal digits. -/
def hex4 (n : Nat) : List Char :=
  [hexDigit (n / 4096 % 16), hexDigit (n / 256 % 16), hexDigit (n / 16 % 16), hexDigit (n % 16)]

/-- A character as Go writes it inside a string. -/
def escape (c : Char) : List Char :=
  if c = '\x22' ∨ c = '\x5c' then ['\x5c', c]
  else if c = '\x08' then ['\x5c', 'b']
  else if c = '\x0c' then ['\x5c', 'f']
  else if c = '\n' then ['\x5c', 'n']
  else if c = '\r' then ['\x5c', 'r']
  else if c = '\t' then ['\x5c', 't']
  else if c.toNat < 0x20 ∨ c = '<' ∨ c = '>' ∨ c = '&' ∨ c = '\u2028' ∨ c = '\u2029' then
    '\x5c' :: 'u' :: hex4 c.toNat
  else [c]

/-- Read four hexadecimal digits. -/
def scanHex4 : List Char → Option (Nat × List Char)
  | a :: b :: c :: d :: rest => do
    some (((← hexValue a) * 16 + (← hexValue b)) * 256 + (← hexValue c) * 16 + (← hexValue d), rest)
  | _ => none

/-- The second half of a surrogate pair, right behind the first one. -/
def scanLowSurrogate : List Char → Option (Nat × List Char)
  | '\x5c' :: 'u' :: rest => (scanHex4 rest).filter fun (n, _) => 0xDC00 ≤ n ∧ n < 0xE000
  | _ => none

variable (cs : List Char)

/-- What stands behind the `u` of an escape. -/
def scanUnicode : Option (Char × List Char) := do
  let (n, rest) ← scanHex4 cs
  if 0xD800 ≤ n ∧ n < 0xDC00 then
    match scanLowSurrogate rest with
    | some (low, rest) => some (Char.ofNat (0x10000 + (n - 0xD800) * 0x400 + (low - 0xDC00)), rest)
    | none => some ('\ufffd', rest)
  else if 0xDC00 ≤ n ∧ n < 0xE000 then some ('\ufffd', rest)
  else some (Char.ofNat n, rest)

/-- The characters of one letter escapes. -/
def unescape (e : Char) : Option Char :=
  if e = '\x22' ∨ e = '\x5c' ∨ e = '/' then some e
  else if e = 'b' then some '\x08'
  else if e = 'f' then some '\x0c'
  else if e = 'n' then some '\n'
  else if e = 'r' then some '\r'
  else if e = 't' then some '\t'
  else none

/-- One character of a string. -/
def scanChar : List Char → Option (Char × List Char)
  | [] => none
  | c :: rest =>
    if c = '\x5c' then
      match rest with
      | [] => none
      | e :: rest => if e = 'u' then scanUnicode rest else (unescape e).map fun c => (c, rest)
    else if c.toNat < 0x20 then none
    else some (c, rest)

/-- The characters of a string up to its quote. -/
def scanChars : Nat → List Char → Option (List Char × List Char)
  | 0, _ => none
  | fuel + 1, cs =>
    if cs.head? = some '\x22' then some ([], cs.tail)
    else do
      let (c, rest) ← scanChar cs
      let (s, rest) ← scanChars fuel rest
      some (c :: s, rest)

/-- A string behind its first quote. -/
def scanString : Option (String × List Char) :=
  (scanChars (cs.length + 1) cs).map fun (s, rest) => (String.ofList s, rest)

/-- The text in quotes. -/
def printString (s : String) : List Char := '\x22' :: s.toList.flatMap escape ++ ['\x22']

/-- The fraction of a number, behind its point. -/
def scanFraction : Option (List Char × List Char) :=
  if cs.head? = some '.' then
    if cs.tail.takeWhile Char.isDigit = [] then none
    else some (cs.tail.takeWhile Char.isDigit, cs.tail.dropWhile Char.isDigit)
  else some ([], cs)

/-- The sign before some digits. -/
def scanSign : Bool × List Char :=
  if cs.head? = some '-' then (true, cs.tail) else (false, cs)

/-- The exponent of a number, zero without one. -/
def scanExponent : Option (Int × List Char) :=
  if cs.head? = some 'e' ∨ cs.head? = some 'E' then
    let (negative, ds) :=
      if cs.tail.head? = some '+' then (false, cs.tail.tail) else scanSign cs.tail
    match parseDigits (ds.takeWhile Char.isDigit) with
    | none => none
    | some n => some (if negative then -n else n, ds.dropWhile Char.isDigit)
  else some (0, cs)

/-- A number with its exact value: no zeros in front, digits on both sides of a point. -/
def scanNumber : Option (ℚ × List Char) :=
  let (negative, cs) := scanSign cs
  let ds := cs.takeWhile Char.isDigit
  if ds = [] ∨ (ds.head? = some '0' ∧ ds ≠ ['0']) then none
  else do
    let (fs, rest) ← scanFraction (cs.dropWhile Char.isDigit)
    let (e, rest) ← scanExponent rest
    let m := (parseDigits (ds ++ fs)).getD 0
    some ((if negative then -1 else 1) * m * 10 ^ (e - fs.length), rest)

section Strings

private theorem scanHex4_hex4 {n : Nat} (h : n < 65536) (rest : List Char) :
    scanHex4 (hex4 n ++ rest) = some (n, rest) := by
  have hall : ∀ k < 16, hexValue (hexDigit k) = some k := by decide
  have hmod : ∀ k, hexValue (hexDigit (k % 16)) = some (k % 16) :=
    fun k => hall _ (Nat.mod_lt k (by decide))
  simp only [hex4, List.cons_append, List.nil_append, scanHex4, hmod, Option.bind_eq_bind,
    Option.bind_some]
  congr 2
  omega

/-- The characters that are written by their numbers are no surrogates. -/
theorem scanUnicode_hex4 {c : Char} (h : c.toNat < 0xD800) (rest : List Char) :
    scanUnicode (hex4 c.toNat ++ rest) = some (c, rest) := by
  have hlow : ¬(0xD800 ≤ c.toNat ∧ c.toNat < 0xDC00) := by omega
  have hhigh : ¬(0xDC00 ≤ c.toNat ∧ c.toNat < 0xE000) := by omega
  simp only [scanUnicode, scanHex4_hex4 (show c.toNat < 65536 by omega), Option.bind_eq_bind,
    Option.bind_some, if_neg hlow, if_neg hhigh, Char.ofNat_toNat]

/-- Every character is read back from its escape. -/
theorem scanChar_escape (c : Char) (rest : List Char) :
    scanChar (escape c ++ rest) = some (c, rest) := by
  unfold escape
  split_ifs with hquote hb hf hn hr ht hu
  · rcases hquote with rfl | rfl <;> rfl
  · subst hb
    rfl
  · subst hf
    rfl
  · subst hn
    rfl
  · subst hr
    rfl
  · subst ht
    rfl
  · have hsmall : c.toNat < 0xD800 := by
      rcases hu with hu | rfl | rfl | rfl | rfl | rfl
      · omega
      all_goals decide
    exact scanUnicode_hex4 hsmall rest
  · have hslash : c ≠ '\x5c' := fun h => hquote (.inr h)
    have hcontrol : ¬ c.toNat < 0x20 := fun h => hu (.inl h)
    simp only [List.singleton_append, scanChar, if_neg hslash, if_neg hcontrol]

/-- An escape does not begin with a quote. -/
theorem head_escape (c : Char) (rest : List Char) : (escape c ++ rest).head? ≠ some '\x22' := by
  unfold escape
  split_ifs with hquote
  all_goals simp
  exact fun h => hquote (.inl h)

private theorem length_escape_pos (c : Char) : 0 < (escape c).length := by
  unfold escape
  split_ifs <;> simp

private theorem scanChars_escape (s rest : List Char) {fuel : Nat}
    (hfuel : (s.flatMap escape).length < fuel) :
    scanChars fuel (s.flatMap escape ++ '\x22' :: rest) = some (s, rest) := by
  induction s generalizing fuel with
  | nil =>
    obtain ⟨fuel, rfl⟩ := Nat.exists_eq_succ_of_ne_zero (Nat.ne_of_gt hfuel)
    rfl
  | cons c s ih =>
    have hpos := length_escape_pos c
    rw [List.flatMap_cons, List.length_append] at hfuel
    obtain ⟨fuel, rfl⟩ := Nat.exists_eq_succ_of_ne_zero (show fuel ≠ 0 by omega)
    rw [List.flatMap_cons, List.append_assoc, scanChars, if_neg (head_escape c _),
      scanChar_escape, Option.bind_eq_bind, Option.bind_some]
    dsimp only
    rw [ih (by omega)]
    rfl

/-- A string is read back from what is written. -/
theorem scanString_printString (s : String) (rest : List Char) :
    ∃ cs, printString s ++ rest = '\x22' :: cs ∧ scanString cs = some (s, rest) := by
  refine ⟨s.toList.flatMap escape ++ '\x22' :: rest, by simp [printString], ?_⟩
  have hfuel : (s.toList.flatMap escape).length <
      (s.toList.flatMap escape ++ '\x22' :: rest).length + 1 := by
    rw [List.length_append, List.length_cons]
    omega
  rw [scanString, scanChars_escape s.toList rest hfuel, Option.map_some]
  dsimp only
  rw [String.ofList_toList]

end Strings

/-- The text goes on with what may follow a value. -/
def Delimited (rest : List Char) : Prop := ∀ c, rest.head? = some c → c = ',' ∨ c = ']' ∨ c = '\x7d'

/-- A number as it is written, with its exact value. -/
structure Numeral where
  text : List Char
  value : ℚ
  head : ∃ c cs, text = c :: cs ∧ (c = '-' ∨ c.isDigit = true)
  scans : ∀ rest, Delimited rest → scanNumber (text ++ rest) = some (value, rest)

variable {rest : List Char}

section Numbers

/-- A decimal number other than zero does not begin with a zero. -/
theorem head_toString {n : Nat} (h : n ≠ 0) : (toString n).toList.head? ≠ some '0' := by
  rw [show (toString n).toList = Nat.toDigits 10 n from Nat.toList_repr]
  induction n using Nat.strongRecOn with
  | _ n ih =>
    rcases Nat.lt_or_ge n 10 with hlt | hge
    · rw [Nat.toDigits_of_lt_base hlt]
      have hall : ∀ k < 10, k ≠ 0 → ([k.digitChar] : List Char).head? ≠ some '0' := by decide
      exact hall n hlt h
    · rw [Nat.toDigits_of_base_le (by decide) hge,
        List.head?_append_of_ne_nil _ Nat.toDigits_ne_nil]
      exact ih (n / 10) (by omega) (by omega)

private theorem Delimited.head_ne (h : Delimited rest) {c : Char}
    (hc : c ≠ ',' ∧ c ≠ ']' ∧ c ≠ '\x7d') : rest.head? ≠ some c := by
  intro hhead
  rcases h c hhead with rfl | rfl | rfl
  · exact hc.1 rfl
  · exact hc.2.1 rfl
  · exact hc.2.2 rfl

private theorem Delimited.scan_rest (h : Delimited rest) :
    rest.takeWhile Char.isDigit = [] ∧ rest.dropWhile Char.isDigit = rest ∧
      scanFraction rest = some ([], rest) ∧ scanExponent rest = some (0, rest) := by
  refine ⟨?_, ?_, if_neg (h.head_ne (by decide)), if_neg ?_⟩
  · cases rest with
    | nil => rfl
    | cons c rest =>
      refine List.takeWhile_cons_of_neg ?_
      rcases h c rfl with rfl | rfl | rfl <;> decide
  · cases rest with
    | nil => rfl
    | cons c rest =>
      refine List.dropWhile_cons_of_neg ?_
      rcases h c rfl with rfl | rfl | rfl <;> decide
  · rintro (he | he)
    · exact h.head_ne (by decide) he
    · exact h.head_ne (by decide) he

/-- The digits of a natural number are scanned after its sign. -/
theorem scanNumber_digits (n : Nat) (h : Delimited rest) {cs : List Char} {negative : Bool}
    (hsign : scanSign cs = (negative, (toString n).toList ++ rest)) :
    scanNumber cs = some ((if negative then -1 else 1 : ℚ) * n, rest) := by
  have hdigits : ∀ c ∈ (toString n).toList, c.isDigit = true := fun c => isDigit_of_mem_toString
  obtain ⟨htake, hdrop, hfraction, hexponent⟩ := h.scan_rest
  have hds : ((toString n).toList ++ rest).takeWhile Char.isDigit = (toString n).toList := by
    rw [List.takeWhile_append_of_pos hdigits, htake, List.append_nil]
  have hok : ¬((toString n).toList = [] ∨
      ((toString n).toList.head? = some '0' ∧ (toString n).toList ≠ ['0'])) := by
    rintro (hnil | ⟨hzero, hne⟩)
    · rw [show (toString n).toList = Nat.toDigits 10 n from Nat.toList_repr] at hnil
      exact Nat.toDigits_ne_nil hnil
    · rcases eq_or_ne n 0 with rfl | hn
      · exact hne rfl
      · exact head_toString hn hzero
  rw [scanNumber, hsign]
  dsimp only
  rw [hds, if_neg hok, List.dropWhile_append_of_pos hdigits, hdrop, hfraction,
    Option.bind_eq_bind, Option.bind_some]
  dsimp only
  rw [hexponent, Option.bind_eq_bind, Option.bind_some]
  dsimp only
  rw [List.append_nil, parseDigits_toString]
  simp

private theorem scanSign_toString (n : Nat) (rest : List Char) :
    scanSign ((toString n).toList ++ rest) = (false, (toString n).toList ++ rest) := by
  have hne : (toString n).toList ≠ [] := Nat.toList_repr ▸ Nat.toDigits_ne_nil
  rw [scanSign, if_neg]
  rw [List.head?_append_of_ne_nil _ hne]
  exact fun hminus => minus_not_mem_toString n (List.mem_of_head? hminus)

private theorem toList_toString_negSucc (n : Nat) :
    (toString (Int.negSucc n)).toList = '-' :: (toString (n + 1)).toList := by
  change ("-" ++ toString (n + 1)).toList = _
  rw [String.toList_append]
  rfl

private theorem head_toString_int (n : Int) :
    ∃ c cs, (toString n).toList = c :: cs ∧ (c = '-' ∨ c.isDigit = true) := by
  cases n with
  | ofNat n =>
    have hne : (toString n).toList ≠ [] := Nat.toList_repr ▸ Nat.toDigits_ne_nil
    obtain ⟨c, cs, hcs⟩ := List.exists_cons_of_ne_nil hne
    exact ⟨c, cs, hcs, .inr (isDigit_of_mem_toString (hcs ▸ List.mem_cons_self ..))⟩
  | negSucc n => exact ⟨'-', _, toList_toString_negSucc n, .inl rfl⟩

/-- A decimal integer is read as itself. -/
theorem scanNumber_toString (n : Int) (h : Delimited rest) :
    scanNumber ((toString n).toList ++ rest) = some ((n : ℚ), rest) := by
  cases n with
  | ofNat n =>
    have hscan := scanNumber_digits n h (scanSign_toString n rest)
    rw [if_neg Bool.false_ne_true, one_mul] at hscan
    exact hscan
  | negSucc n =>
    have hsign : scanSign ((toString (Int.negSucc n)).toList ++ rest) =
        (true, (toString (n + 1)).toList ++ rest) := by
      rw [toList_toString_negSucc]
      rfl
    rw [scanNumber_digits (n + 1) h hsign, if_pos rfl, Int.cast_negSucc, neg_one_mul]

end Numbers

/-- A decimal integer. -/
def Numeral.ofInt (n : Int) : Numeral where
  text := (toString n).toList
  value := n
  head := head_toString_int n
  scans _ h := scanNumber_toString n h

end Stardust.Core.Json
