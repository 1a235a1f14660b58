import Mathlib.Algebra.Ring.Int.Defs
import Mathlib.Data.String.Basic

/-!
# Text as Go sees it

Trimming follows Go's notion of white space, splitting and reading numbers Go's standard
library. Texts put together around a separator are told apart by its last occurrence.
-/

namespace Stardust.Core

/-- The white space of Unicode as Go classifies it. -/
def isSpace (c : Char) : Bool :=
  let n := c.toNat
  (9 ≤ n && n ≤ 13) || n == 0x20 || n == 0x85 || n == 0xA0 || n == 0x1680 ||
    (0x2000 ≤ n && n ≤ 0x200A) || n == 0x2028 || n == 0x2029 || n == 0x202F || n == 0x205F ||
    n == 0x3000

/-- The text without white space at its ends. -/
def trimSpace (s : String) : String :=
  String.ofList ((s.toList.dropWhile isSpace).reverse.dropWhile isSpace).reverse

/-- The parts of a text between occurrences of a separator of two characters, found from the
left. -/
def splitPair (a b : Char) : List Char → List (List Char)
  | [] => [[]]
  | c :: d :: rest =>
    if c = a ∧ d = b then [] :: splitPair a b rest
    else match splitPair a b (d :: rest) with
      | part :: parts => (c :: part) :: parts
      | [] => [[c]]
  | [c] => [[c]]

/-- The value of a decimal digit. -/
def digitValue (c : Char) : Nat := c.toNat - '0'.toNat

/-- The value of a hexadecimal digit. -/
def hexValue (c : Char) : Option Nat :=
  if c.isDigit then some (digitValue c)
  else if 'a' ≤ c ∧ c ≤ 'f' then some (c.toNat - 'a'.toNat + 10)
  else if 'A' ≤ c ∧ c ≤ 'F' then some (c.toNat - 'A'.toNat + 10)
  else none

/-- The decimal number that a text of digits stands for, none for any other text. -/
def parseDigits (cs : List Char) : Option Nat :=
  if cs ≠ [] ∧ cs.all Char.isDigit then
    some (cs.foldl (fun n c => 10 * n + (c.toNat - '0'.toNat)) 0)
  else none

/-- A signed decimal number of a number of bits: out of range the nearest one in range, and `0`
for a text that is no number. -/
def parseInt (bits : Nat) (cs : List Char) : Int :=
  let (negative, digits) := match cs with
    | '-' :: cs => (true, cs)
    | '+' :: cs => (false, cs)
    | cs => (false, cs)
  match parseDigits digits with
  | none => 0
  | some n => if negative then max (-n) (-2 ^ (bits - 1)) else min n (2 ^ (bits - 1) - 1)

/-- How a text is split, from the left. -/
inductive SplitsPair (a b : Char) : List Char → List (List Char) → Prop
  | nil : SplitsPair a b [] [[]]
  | single (c : Char) : SplitsPair a b [c] [[c]]
  /-- The text begins with the separator. -/
  | sep {rest : List Char} {parts : List (List Char)} (hrest : SplitsPair a b rest parts) :
      SplitsPair a b (a :: b :: rest) ([] :: parts)
  /-- The first character belongs to the first part. -/
  | char {c d : Char} {rest part : List Char} {parts : List (List Char)} (hsep : ¬(c = a ∧ d = b))
      (hrest : SplitsPair a b (d :: rest) (part :: parts)) :
      SplitsPair a b (c :: d :: rest) ((c :: part) :: parts)

section SplitPair

variable {a b c : Char} {cs part : List Char} {parts : List (List Char)}

private theorem splitPair_splits (a b : Char) (cs : List Char) :
    SplitsPair a b cs (splitPair a b cs) := by
  fun_induction splitPair a b cs with
  | case1 => exact .nil
  | case2 c d rest hsep ih =>
    obtain ⟨rfl, rfl⟩ := hsep
    exact .sep ih
  | case3 c d rest hsep part parts hrest ih => exact .char hsep (hrest ▸ ih)
  | case4 c d rest hsep hrest ih =>
    rw [hrest] at ih
    cases ih
  | case5 c => exact .single c

/-- There is one way to split a text. -/
theorem SplitsPair.splitPair_eq (h : SplitsPair a b cs parts) : splitPair a b cs = parts := by
  induction h with
  | nil => rfl
  | single c => rfl
  | sep hrest ih => rw [splitPair, if_pos ⟨rfl, rfl⟩, ih]
  | char hsep hrest ih => rw [splitPair, if_neg hsep, ih]

private theorem splits_of_splitPair (h : splitPair a b cs = parts) : SplitsPair a b cs parts :=
  h ▸ splitPair_splits a b cs

/-- A part begins with the first character of the text. -/
theorem SplitsPair.head (h : SplitsPair a b cs ((c :: part) :: parts)) :
    ∃ rest, cs = c :: rest := by
  cases h with
  | single => exact ⟨[], rfl⟩
  | char hsep hrest => exact ⟨_, rfl⟩

/-- An empty first part of several begins with the separator. -/
theorem SplitsPair.head_of_nil {d : Char} {rest next : List Char}
    (h : SplitsPair a b (d :: rest) ([] :: next :: parts)) : d = a := by
  cases h with
  | sep hrest => rfl

/-- The separator does not occur in the first part. -/
theorem splitPair_first (h : splitPair a b cs = part :: parts) (before after : List Char) :
    part ≠ before ++ a :: b :: after := by
  have hsplits := splits_of_splitPair h
  clear h
  generalize hall : part :: parts = all at hsplits
  induction hsplits generalizing part parts before with
  | nil =>
    cases hall
    simp
  | single c =>
    cases hall
    cases before <;> simp
  | sep hrest ih =>
    cases hall
    simp
  | char hsep hrest ih =>
    cases hall
    intro heq
    cases before with
    | nil =>
      rw [List.nil_append, List.cons.injEq] at heq
      obtain ⟨rfl, rfl⟩ := heq
      obtain ⟨_, hhead⟩ := hrest.head
      exact hsep ⟨rfl, (List.cons.inj hhead).1⟩
    | cons e before =>
      rw [List.cons_append, List.cons.injEq] at heq
      exact ih before rfl heq.2

/-- All characters of the first part are from the text. -/
theorem mem_of_splitPair_first (h : splitPair a b cs = part :: parts) : part ⊆ cs := by
  have hsplits := splits_of_splitPair h
  clear h
  generalize hall : part :: parts = all at hsplits
  induction hsplits generalizing part parts with
  | nil =>
    cases hall
    exact List.Subset.refl _
  | single c =>
    cases hall
    exact List.Subset.refl _
  | sep hrest ih =>
    cases hall
    exact List.nil_subset _
  | char hsep hrest ih =>
    cases hall
    exact List.cons_subset_cons _ (ih rfl)

/-- A text without the separator is its only part. -/
theorem splitPair_of_no_pair (h : ∀ before after, cs ≠ before ++ a :: b :: after) :
    splitPair a b cs = [cs] := by
  generalize hparts : splitPair a b cs = parts
  have hsplits := splits_of_splitPair hparts
  clear hparts
  induction hsplits with
  | nil => rfl
  | single c => rfl
  | sep hrest ih => exact absurd rfl (h [] _)
  | char hsep hrest ih =>
    have hsame := ih fun before after heq => h (_ :: before) after (by rw [heq]; rfl)
    cases hsame
    rfl

/-- A text with the separator has at least two parts. -/
theorem two_le_length_splitPair (x y : List Char) :
    2 ≤ (splitPair a b (x ++ a :: b :: y)).length := by
  generalize htext : x ++ a :: b :: y = text
  generalize hparts : splitPair a b text = parts
  have hsplits := splits_of_splitPair hparts
  clear hparts
  induction hsplits generalizing x with
  | nil => exact absurd htext (by simp)
  | single c => cases x <;> simp at htext
  | sep hrest ih =>
    cases hrest <;> simp
  | char hsep hrest ih =>
    cases x with
    | nil =>
      obtain ⟨rfl, htail⟩ := List.cons.inj htext
      exact absurd ⟨rfl, (List.cons.inj htail).1.symm⟩ hsep
    | cons e x => exact ih x (List.cons.inj htext).2

/-- A text that begins with a part and the separator is split there. -/
theorem splitPair_append (h : ∀ before after, part ++ [a] ≠ before ++ a :: b :: after)
    (rest : List Char) : splitPair a b (part ++ a :: b :: rest) = part :: splitPair a b rest := by
  refine SplitsPair.splitPair_eq ?_
  induction part with
  | nil => exact .sep (splitPair_splits a b rest)
  | cons c part ih =>
    have hpart := ih fun before after heq =>
      h (c :: before) after (by rw [List.cons_append, heq]; rfl)
    cases part with
    | nil =>
      refine .char ?_ hpart
      rintro ⟨rfl, rfl⟩
      exact h [] [] rfl
    | cons d part =>
      refine .char ?_ hpart
      rintro ⟨rfl, rfl⟩
      exact h [] (part ++ [c]) rfl

/-- The separator does not begin in the first part of several, not even with its last character. -/
theorem splitPair_first_followed {next : List Char}
    (h : splitPair a b cs = part :: next :: parts) (before after : List Char) :
    part ++ [a] ≠ before ++ a :: b :: after := by
  have hsplits := splits_of_splitPair h
  clear h
  generalize hall : part :: next :: parts = all at hsplits
  induction hsplits generalizing part before with
  | nil => cases hall
  | single c => cases hall
  | sep hrest ih =>
    obtain ⟨rfl, -⟩ := List.cons.inj hall
    cases before <;> simp
  | @char c d rest part' parts' hsep hrest ih =>
    cases hall
    intro heq
    cases before with
    | nil =>
      obtain ⟨rfl, heq⟩ := List.cons.inj heq
      cases part' with
      | nil =>
        obtain ⟨rfl, -⟩ := List.cons.inj heq
        exact hsep ⟨rfl, hrest.head_of_nil⟩
      | cons e part' =>
        obtain ⟨rfl, -⟩ := List.cons.inj heq
        obtain ⟨_, hhead⟩ := hrest.head
        exact hsep ⟨rfl, (List.cons.inj hhead).1⟩
    | cons c' before => exact ih before rfl (List.cons.inj heq).2

end SplitPair

/-- A text is divided at the last occurrence of a character. -/
theorem exists_append_cons_of_mem {α : Type*} [DecidableEq α] {c : α} {cs : List α} (h : c ∈ cs) :
    ∃ before after, cs = before ++ c :: after ∧ c ∉ after := by
  induction cs with
  | nil => cases h
  | cons d cs ih =>
    by_cases hlater : c ∈ cs
    · obtain ⟨before, after, rfl, hafter⟩ := ih hlater
      exact ⟨d :: before, after, rfl, hafter⟩
    · rcases List.mem_cons.mp h with rfl | hmem
      · exact ⟨[], cs, rfl, hlater⟩
      · exact absurd hmem hlater

/-- Texts around the last occurrence of a separator agree on both sides of it. -/
theorem eq_of_append_cons_eq {α : Type*} {c : α} {a b x y : List α} (hx : c ∉ x) (hy : c ∉ y)
    (h : a ++ c :: x = b ++ c :: y) : a = b ∧ x = y := by
  induction a generalizing b with
  | nil =>
    cases b with
    | nil => exact ⟨rfl, (List.cons.inj h).2⟩
    | cons d b =>
      obtain ⟨-, rfl⟩ := List.cons.inj h
      exact absurd (List.mem_append_right b (List.mem_cons_self ..)) hx
  | cons d a ih =>
    cases b with
    | nil =>
      obtain ⟨-, rfl⟩ := List.cons.inj h
      exact absurd (List.mem_append_right a (List.mem_cons_self ..)) hy
    | cons d' b =>
      rw [List.cons_append, List.cons_append, List.cons.injEq] at h
      obtain ⟨hab, hxy⟩ := ih h.2
      exact ⟨by rw [h.1, hab], hxy⟩

/-- A text that is put together at a separator can be taken apart there only, exactly if the
separator is in neither part. -/
theorem forall_prefix_iff_eq {α : Type*} {c : α} {x y : List α} :
    (∀ n, n ++ [c] <+: x ++ c :: y ↔ x = n) ↔ c ∉ x ∧ c ∉ y := by
  constructor
  · intro h
    constructor
    · intro hc
      obtain ⟨a, b, rfl⟩ := List.append_of_mem hc
      have hshort := (h a).mp ⟨b ++ c :: y, by simp⟩
      simp at hshort
    · intro hc
      obtain ⟨a, b, rfl⟩ := List.append_of_mem hc
      have hlong := (h (x ++ c :: a)).mp ⟨b, by simp⟩
      simp at hlong
  · rintro ⟨hx, hy⟩ n
    constructor
    · rintro ⟨rest, hrest⟩
      rw [List.append_assoc, List.singleton_append] at hrest
      have hnone : c ∉ rest := by
        intro hc
        classical
        obtain ⟨a, b, rfl, hb⟩ := exists_append_cons_of_mem hc
        rw [← List.cons_append, ← List.append_assoc] at hrest
        obtain ⟨rfl, -⟩ := eq_of_append_cons_eq hb hy hrest
        exact hx (by simp)
      exact (eq_of_append_cons_eq hnone hy hrest).1.symm
    · rintro rfl
      exact ⟨y, by simp⟩

/-- A decimal numeral has digits only. -/
theorem isDigit_of_mem_toString {n : Nat} {c : Char} (h : c ∈ (toString n).toList) :
    c.isDigit = true :=
  Nat.isDigit_of_mem_toDigits (by decide) (by decide) (Nat.toList_repr ▸ h)

/-- Only digits are parsed. -/
theorem digits_of_parseDigits {cs : List Char} {n : Nat} (h : parseDigits cs = some n) :
    cs ≠ [] ∧ ∀ c ∈ cs, c.isDigit = true := by
  obtain ⟨hdigits, -⟩ := Option.ite_none_right_eq_some.mp h
  exact ⟨hdigits.1, List.all_eq_true.mp hdigits.2⟩

/-- Zeros in front change nothing. -/
theorem parseDigits_replicate_zero (k : Nat) {cs : List Char} (h : cs ≠ []) :
    parseDigits (List.replicate k '0' ++ cs) = parseDigits cs := by
  induction k with
  | zero => rfl
  | succ k ih =>
    rw [List.replicate_succ, List.cons_append, ← ih]
    have hne : List.replicate k '0' ++ cs ≠ [] := by simp [h]
    have hzero : Char.isDigit '0' = true := by decide
    simp only [parseDigits, List.all_cons, hzero, Bool.true_and, hne, List.cons_ne_nil, ne_eq,
      not_false_eq_true, true_and, List.foldl_cons, Nat.mul_zero, Nat.zero_add, Nat.sub_self]

/-- Decimal numbers are read back. -/
theorem parseDigits_toString (n : Nat) : parseDigits (toString n).toList = some n := by
  have hlist : (toString n).toList = Nat.toDigits 10 n := Nat.toList_repr
  have hdigits : (Nat.toDigits 10 n).all Char.isDigit = true := by
    rw [← hlist, List.all_eq_true]
    exact fun c hc => isDigit_of_mem_toString hc
  rw [hlist, parseDigits, if_pos ⟨Nat.toDigits_ne_nil, hdigits⟩]
  exact congrArg some (Nat.ofDigitChars_toDigits (by decide) (by decide))

/-- Different numbers have different numerals. -/
theorem eq_of_toString_eq {m n : Nat} (h : (toString m).toList = (toString n).toList) :
    m = n := by
  have hparse := parseDigits_toString m
  rw [h, parseDigits_toString] at hparse
  exact (Option.some.inj hparse).symm

/-- A decimal number without a sign is read as itself, as far as it is in range. -/
theorem parseInt_of_digits {cs : List Char} {n : Nat} (h : parseDigits cs = some n) (bits : Nat) :
    parseInt bits cs = min (n : Int) (2 ^ (bits - 1) - 1) := by
  have hdigit := (digits_of_parseDigits h).2
  unfold parseInt
  split
  rename_i negative digits hsign
  split at hsign
  · exact absurd (hdigit _ (List.mem_cons_self ..)) (by decide)
  · exact absurd (hdigit _ (List.mem_cons_self ..)) (by decide)
  · cases hsign
    rw [h]
    rfl

/-- A numeral is read back, up to the largest number. -/
theorem parseInt_toString (bits n : Nat) :
    parseInt bits (toString n).toList = min (n : Int) (2 ^ (bits - 1) - 1) :=
  parseInt_of_digits (parseDigits_toString n) bits

/-- Decimal numbers have no minus sign of their own. -/
theorem minus_not_mem_toString (n : Nat) : '-' ∉ (toString n).toList := by
  intro h
  have hdigit := isDigit_of_mem_toString h
  revert hdigit
  decide

/-- Decimal numbers are written with digits, and a minus sign if they are negative. -/
theorem digit_or_minus_of_mem_toString {n : Int} {c : Char} (h : c ∈ (toString n).toList) :
    c.isDigit = true ∨ c = '-' := by
  cases n with
  | ofNat n => exact .inl (isDigit_of_mem_toString h)
  | negSucc n =>
    change c ∈ ("-" ++ toString (n + 1)).toList at h
    rw [String.toList_append, List.mem_append] at h
    rcases h with h | h
    · exact .inr (List.mem_singleton.mp h)
    · exact .inl (isDigit_of_mem_toString h)

end Stardust.Core
