import Stardust.Core.JsonTokens

/-!
# JSON texts

Values are trees with texts and numbers of any kind at the leaves. They are written without white
space, as Go does it, and read by the grammar of JSON with Go's limit on nesting. What was written
is read back with the exact values of its numbers, unless it is nested too deeply.
-/

namespace Stardust.Core

/-- A value with texts in `σ` and numbers in `ν`. -/
inductive Json (σ ν : Type) where
  | null
  | bool (b : Bool)
  | num (n : ν)
  | str (s : σ)
  | arr (elems : List (Json σ ν))
  | obj (members : List (σ × Json σ ν))

namespace Json

variable {σ ν μ : Type}

/-- Induction over all elements and members. -/
theorem induct {P : Json σ ν → Prop} (null : P .null) (bool : ∀ b, P (.bool b))
    (num : ∀ n, P (.num n)) (str : ∀ s, P (.str s))
    (arr : ∀ elems : List (Json σ ν), (∀ j ∈ elems, P j) → P (.arr elems))
    (obj : ∀ members : List (σ × Json σ ν), (∀ m ∈ members, P m.2) → P (.obj members))
    (j : Json σ ν) : P j :=
  @Json.rec σ ν P (fun elems => ∀ j ∈ elems, P j) (fun members => ∀ m ∈ members, P m.2)
    (fun m => P m.2) null bool num str arr obj (fun _ h => absurd h List.not_mem_nil)
    (fun _ _ hhead htail => List.forall_mem_cons.mpr ⟨hhead, htail⟩)
    (fun _ h => absurd h List.not_mem_nil)
    (fun _ _ hhead htail => List.forall_mem_cons.mpr ⟨hhead, htail⟩) (fun _ _ h => h) j

mutual

/-- Replace the numbers. -/
def map (f : ν → μ) : Json σ ν → Json σ μ
  | null => null
  | bool b => bool b
  | num n => num (f n)
  | str s => str s
  | arr elems => arr (mapElems f elems)
  | obj members => obj (mapMembers f members)

/-- The elements of an array. -/
def mapElems (f : ν → μ) : List (Json σ ν) → List (Json σ μ)
  | [] => []
  | j :: rest => map f j :: mapElems f rest

/-- The members of an object. -/
def mapMembers (f : ν → μ) : List (σ × Json σ ν) → List (σ × Json σ μ)
  | [] => []
  | (k, j) :: rest => (k, map f j) :: mapMembers f rest

end

mutual

/-- How deeply arrays and objects are nested. -/
def depth : Json σ ν → Nat
  | arr elems => depthElems elems + 1
  | obj members => depthMembers members + 1
  | _ => 0

/-- The deepest element of an array. -/
def depthElems : List (Json σ ν) → Nat
  | [] => 0
  | j :: rest => max (depth j) (depthElems rest)

/-- The deepest member of an object. -/
def depthMembers : List (σ × Json σ ν) → Nat
  | [] => 0
  | (_, j) :: rest => max (depth j) (depthMembers rest)

end

mutual

/-- The text without spaces. -/
def print : Json String Numeral → List Char
  | null => ['n', 'u', 'l', 'l']
  | bool true => ['t', 'r', 'u', 'e']
  | bool false => ['f', 'a', 'l', 's', 'e']
  | num n => n.text
  | str s => printString s
  | arr [] => ['[', ']']
  | arr (j :: rest) => '[' :: (print j ++ printElems rest)
  | obj [] => ['\x7b', '\x7d']
  | obj ((k, j) :: rest) => '\x7b' :: (printString k ++ ':' :: (print j ++ printMembers rest))

/-- The elements behind the first one, up to the bracket. -/
def printElems : List (Json String Numeral) → List Char
  | [] => [']']
  | j :: rest => ',' :: (print j ++ printElems rest)

/-- The members behind the first one, up to the brace. -/
def printMembers : List (String × Json String Numeral) → List Char
  | [] => ['\x7d']
  | (k, j) :: rest => ',' :: (printString k ++ ':' :: (print j ++ printMembers rest))

end

/-- Drop the white space in front. -/
def skipSpace (cs : List Char) : List Char :=
  cs.dropWhile fun c => c = ' ' ∨ c = '\t' ∨ c = '\n' ∨ c = '\r'

/-- A word that stands for a value. -/
def scanWord (word : List Char) (j : Json String ℚ) (cs : List Char) :
    Option (Json String ℚ × List Char) :=
  if word.isPrefixOf cs then some (j, cs.drop word.length) else none

/-- What follows an item of a sequence: more items behind a comma, or the end. -/
def parseMore {α : Type} (close : Char) (again : List Char → Option (List α × List Char)) (item : α)
    (rest : List Char) : Option (List α × List Char) :=
  if (skipSpace rest).head? = some ',' then
    (again (skipSpace rest).tail).map fun (items, rest) => (item :: items, rest)
  else if (skipSpace rest).head? = some close then some ([item], (skipSpace rest).tail)
  else none

mutual

/-- A value, with the levels of nesting that are left. -/
def parseValue : Nat → Nat → List Char → Option (Json String ℚ × List Char)
  | 0, _, _ => none
  | fuel + 1, levels, cs =>
    match skipSpace cs with
    | [] => none
    | c :: rest =>
      if c = '\x22' then (scanString rest).map fun (s, rest) => (str s, rest)
      else if c = '[' then
        if levels = 0 then none
        else if (skipSpace rest).head? = some ']' then some (arr [], (skipSpace rest).tail)
        else (parseElems fuel (levels - 1) rest).map fun (elems, rest) => (arr elems, rest)
      else if c = '\x7b' then
        if levels = 0 then none
        else if (skipSpace rest).head? = some '\x7d' then some (obj [], (skipSpace rest).tail)
        else (parseMembers fuel (levels - 1) rest).map fun (members, rest) => (obj members, rest)
      else if c = 'n' then scanWord ['n', 'u', 'l', 'l'] null (c :: rest)
      else if c = 't' then scanWord ['t', 'r', 'u', 'e'] (bool true) (c :: rest)
      else if c = 'f' then scanWord ['f', 'a', 'l', 's', 'e'] (bool false) (c :: rest)
      else (scanNumber (c :: rest)).map fun (q, rest) => (num q, rest)

/-- The elements of an array, up to its bracket. -/
def parseElems : Nat → Nat → List Char → Option (List (Json String ℚ) × List Char)
  | 0, _, _ => none
  | fuel + 1, levels, cs => do
    let (j, rest) ← parseValue fuel levels cs
    parseMore ']' (parseElems fuel levels) j rest

/-- The members of an object, up to its brace. -/
def parseMembers : Nat → Nat → List Char → Option (List (String × Json String ℚ) × List Char)
  | 0, _, _ => none
  | fuel + 1, levels, cs =>
    if (skipSpace cs).head? = some '\x22' then do
      let (k, rest) ← scanString (skipSpace cs).tail
      if (skipSpace rest).head? = some ':' then do
        let (j, rest) ← parseValue fuel levels (skipSpace rest).tail
        parseMore '\x7d' (parseMembers fuel levels) (k, j) rest
      else none
    else none

end

/-- The levels of nesting that Go accepts. -/
def maxDepth : Nat := 10000

/-- The value that a whole text stands for. -/
def parse (cs : List Char) : Option (Json String ℚ) :=
  match parseValue (2 * cs.length + 1) maxDepth cs with
  | some (j, rest) => if skipSpace rest = [] then some j else none
  | none => none

/-- A value is read back, up to the levels that are left. -/
def Parses (j : Json String Numeral) : Prop :=
  ∀ fuel levels rest, 2 * (print j).length ≤ fuel → Delimited rest →
    parseValue fuel levels (print j ++ rest) =
      if j.depth ≤ levels then some (j.map Numeral.value, rest) else none

private theorem skipSpace_cons {c : Char} (h : c ≠ ' ' ∧ c ≠ '\t' ∧ c ≠ '\n' ∧ c ≠ '\r')
    (cs : List Char) : skipSpace (c :: cs) = c :: cs :=
  List.dropWhile_cons_of_neg (by simpa using h)

private theorem delimited_cons {c : Char} (h : c = ',' ∨ c = ']' ∨ c = '\x7d') (rest : List Char) :
    Delimited (c :: rest) := by
  intro d hd
  obtain rfl := Option.some.inj hd
  exact h

/-- A value begins with no space and no closing bracket. -/
theorem head_print (j : Json String Numeral) : ∃ c cs, print j = c :: cs ∧
    (c ≠ ' ' ∧ c ≠ '\t' ∧ c ≠ '\n' ∧ c ≠ '\r') ∧ c ≠ ']' ∧ c ≠ '\x7d' := by
  cases j with
  | null => exact ⟨_, _, rfl, by decide⟩
  | bool b => cases b <;> exact ⟨_, _, rfl, by decide⟩
  | num n =>
    obtain ⟨c, cs, htext, hc⟩ := n.head
    refine ⟨c, cs, htext, ?_⟩
    rcases hc with rfl | hc
    · decide
    · refine ⟨⟨?_, ?_, ?_, ?_⟩, ?_, ?_⟩
      all_goals
        rintro rfl
        exact absurd hc (by decide)
  | str s => exact ⟨_, _, rfl, by decide⟩
  | arr elems => cases elems <;> exact ⟨_, _, rfl, by decide⟩
  | obj members => cases members <;> exact ⟨_, _, rfl, by decide⟩

private theorem skipSpace_print (j : Json String Numeral) (rest : List Char) :
    skipSpace (print j ++ rest) = print j ++ rest := by
  obtain ⟨c, cs, hprint, hspace, -⟩ := head_print j
  rw [hprint, List.cons_append, skipSpace_cons hspace]

private theorem Parses.of_succ {j : Json String Numeral}
    (h : ∀ fuel levels rest, 2 * (print j).length ≤ fuel + 1 → Delimited rest →
      parseValue (fuel + 1) levels (print j ++ rest) =
        if j.depth ≤ levels then some (j.map Numeral.value, rest) else none) : Parses j := by
  intro fuel levels rest hfuel hrest
  obtain ⟨c, cs, hprint, -⟩ := head_print j
  have hpos : 0 < (print j).length := by
    rw [hprint]
    exact Nat.succ_pos _
  obtain ⟨fuel, rfl⟩ := Nat.exists_eq_succ_of_ne_zero (show fuel ≠ 0 by omega)
  exact h fuel levels rest hfuel hrest

section Leaves

private theorem parses_num (n : Numeral) : Parses (num n) := by
  refine Parses.of_succ fun fuel levels rest _ hrest => ?_
  obtain ⟨c, cs, htext, hc⟩ := n.head
  have hscan := n.scans rest hrest
  have hne : ∀ d : Char, d ≠ '-' ∧ d.isDigit = false → c ≠ d := by
    rintro d ⟨hminus, hdigit⟩ rfl
    rcases hc with rfl | hc
    · exact hminus rfl
    · rw [hdigit] at hc
      cases hc
  simp only [print, htext, List.cons_append] at hscan ⊢
  have hspace := skipSpace_cons (c := c)
    ⟨hne _ (by decide), hne _ (by decide), hne _ (by decide), hne _ (by decide)⟩ (cs ++ rest)
  rw [parseValue, hspace]
  dsimp only
  rw [if_neg (hne _ (by decide)), if_neg (hne _ (by decide)), if_neg (hne _ (by decide)),
    if_neg (hne _ (by decide)), if_neg (hne _ (by decide)), if_neg (hne _ (by decide)), hscan]
  rfl

private theorem parses_str (s : String) : Parses (str s) := by
  refine Parses.of_succ fun fuel levels rest _ _ => ?_
  obtain ⟨cs, hcs, hscan⟩ := scanString_printString s rest
  rw [print, hcs, parseValue, skipSpace_cons (by decide)]
  dsimp only
  rw [if_pos rfl, hscan]
  rfl

end Leaves

section Sequences

variable {α : Type} {close : Char} {again : List Char → Option (List α × List Char)}
  (item : Json String ℚ → α) {j : Json String ℚ} {depth levels : Nat} {rest : List Char}

private theorem bind_parseMore_close (hclose : skipSpace (close :: rest) = close :: rest)
    (hcomma : close ≠ ',') :
    ((if depth ≤ levels then some (j, close :: rest) else none).bind fun p =>
        parseMore close again (item p.1) p.2) =
      if depth ≤ levels then some ([item j], rest) else none := by
  split
  · simp [parseMore, hclose, hcomma]
  · rfl

private theorem bind_parseMore_comma {depth' : Nat} {items : List α} {cs : List Char}
    (hagain : again cs = if depth' ≤ levels then some (items, rest) else none) :
    ((if depth ≤ levels then some (j, ',' :: cs) else none).bind fun p =>
        parseMore close again (item p.1) p.2) =
      if max depth depth' ≤ levels then some (item j :: items, rest) else none := by
  have hcomma : skipSpace (',' :: cs) = ',' :: cs := skipSpace_cons (by decide) cs
  by_cases hdepth : depth ≤ levels
  · simp only [parseMore, Option.bind_some, hcomma, List.head?_cons, List.tail_cons, if_true,
      hagain, max_le_iff, hdepth, true_and]
    split <;> rfl
  · rw [if_neg hdepth, if_neg fun hmax => hdepth (le_of_max_le_left hmax)]
    rfl

/-- The elements of an array are read back when all of them are. -/
theorem parseElems_print (elems : List (Json String Numeral)) (j : Json String Numeral)
    (hj : Parses j) (h : ∀ k ∈ elems, Parses k) (fuel levels : Nat) (rest : List Char)
    (hfuel : 2 * (print j ++ printElems elems).length + 1 ≤ fuel) :
    parseElems fuel levels (print j ++ (printElems elems ++ rest)) =
      if depthElems (j :: elems) ≤ levels then some (mapElems Numeral.value (j :: elems), rest)
      else none := by
  obtain ⟨fuel, rfl⟩ := Nat.exists_eq_succ_of_ne_zero (show fuel ≠ 0 by omega)
  induction elems generalizing j fuel with
  | nil =>
    simp only [printElems, List.length_append, List.length_singleton] at hfuel
    have hvalue := hj fuel levels (']' :: rest) (by omega) (delimited_cons (by decide) rest)
    rw [parseElems, printElems, List.singleton_append, hvalue, depthElems, depthElems,
      Nat.max_zero, mapElems, mapElems]
    exact bind_parseMore_close id (skipSpace_cons (by decide) rest) (by decide)
  | cons k elems ih =>
    simp only [printElems, List.length_append, List.length_cons] at hfuel
    obtain ⟨fuel, rfl⟩ := Nat.exists_eq_succ_of_ne_zero (show fuel ≠ 0 by omega)
    have hvalue := hj (fuel + 1) levels (',' :: (print k ++ (printElems elems ++ rest))) (by omega)
      (delimited_cons (by decide) _)
    have hrest := ih k (h k (List.mem_cons_self ..))
      (fun l hl => h l (List.mem_cons_of_mem _ hl)) fuel (by rw [List.length_append]; omega)
    rw [parseElems, printElems, List.cons_append, List.append_assoc, hvalue, depthElems, mapElems]
    exact bind_parseMore_comma id hrest

private theorem parseMembers_key (fuel levels : Nat) (k : String) (cs : List Char) :
    parseMembers (fuel + 1) levels (printString k ++ ':' :: cs) =
      (parseValue fuel levels cs).bind fun (j, rest) =>
        parseMore '\x7d' (parseMembers fuel levels) (k, j) rest := by
  obtain ⟨ds, hds, hscan⟩ := scanString_printString k (':' :: cs)
  rw [hds, parseMembers, skipSpace_cons (by decide), List.head?_cons, List.tail_cons, if_pos rfl,
    hscan, Option.bind_eq_bind, Option.bind_some]
  dsimp only
  rw [skipSpace_cons (by decide), List.head?_cons, List.tail_cons, if_pos rfl]
  rfl

/-- The members of an object are read back when all their values are. -/
theorem parseMembers_print (members : List (String × Json String Numeral)) (k : String)
    (j : Json String Numeral) (hj : Parses j) (h : ∀ m ∈ members, Parses m.2)
    (fuel levels : Nat) (rest : List Char)
    (hfuel : 2 * (printString k ++ ':' :: (print j ++ printMembers members)).length + 1 ≤ fuel) :
    parseMembers fuel levels
        (printString k ++ ':' :: (print j ++ (printMembers members ++ rest))) =
      if depthMembers ((k, j) :: members) ≤ levels then
        some (mapMembers Numeral.value ((k, j) :: members), rest)
      else none := by
  obtain ⟨fuel, rfl⟩ := Nat.exists_eq_succ_of_ne_zero (show fuel ≠ 0 by omega)
  induction members generalizing k j fuel with
  | nil =>
    simp only [printMembers, List.length_append, List.length_cons, List.length_nil] at hfuel
    have hvalue := hj fuel levels ('\x7d' :: rest) (by omega) (delimited_cons (by decide) rest)
    rw [parseMembers_key, printMembers, List.singleton_append, hvalue, depthMembers, depthMembers,
      Nat.max_zero, mapMembers, mapMembers]
    exact bind_parseMore_close (k, ·) (skipSpace_cons (by decide) rest) (by decide)
  | cons m members ih =>
    obtain ⟨l, v⟩ := m
    simp only [printMembers, List.length_append, List.length_cons] at hfuel
    obtain ⟨fuel, rfl⟩ := Nat.exists_eq_succ_of_ne_zero (show fuel ≠ 0 by omega)
    have hvalue := hj (fuel + 1) levels
      (',' :: (printString l ++ ':' :: (print v ++ (printMembers members ++ rest)))) (by omega)
      (delimited_cons (by decide) _)
    have hrest := ih l v (h (l, v) (List.mem_cons_self ..))
      (fun m hm => h m (List.mem_cons_of_mem _ hm)) fuel
      (by simp only [List.length_append, List.length_cons]; omega)
    rw [parseMembers_key, printMembers, List.cons_append, List.append_assoc, List.cons_append,
      List.append_assoc, hvalue, depthMembers, mapMembers]
    exact bind_parseMore_comma (k, ·) hrest

/-- A bracket takes one of the levels. -/
theorem map_sequence {σ : Type} (wrap : σ → Json String ℚ) (seq : σ) (rest : List Char)
    (depth levels : Nat) :
    (if levels = 0 then none
      else (if depth ≤ levels - 1 then some (seq, rest) else none).map fun (seq, rest) =>
        (wrap seq, rest)) =
      if depth + 1 ≤ levels then some (wrap seq, rest) else none := by
  cases levels with
  | zero => rfl
  | succ levels =>
    rw [if_neg (Nat.succ_ne_zero levels), Nat.add_sub_cancel,
      if_congr (Nat.succ_le_succ_iff (a := depth) (b := levels)) rfl rfl]
    split <;> rfl

end Sequences

private theorem parses_arr {elems : List (Json String Numeral)} (h : ∀ j ∈ elems, Parses j) :
    Parses (arr elems) := by
  refine Parses.of_succ fun fuel levels rest hfuel _ => ?_
  rw [depth, map]
  cases elems with
  | nil =>
    rw [print, List.cons_append, List.singleton_append, parseValue, skipSpace_cons (by decide)]
    cases levels with
    | zero => rfl
    | succ levels => rfl
  | cons j elems =>
    rw [print, List.length_cons] at hfuel
    rw [print, List.cons_append, List.append_assoc, parseValue, skipSpace_cons (by decide)]
    obtain ⟨c, cs, hprint, -, hbracket, -⟩ := head_print j
    have hopen : ¬ (skipSpace (print j ++ (printElems elems ++ rest))).head? = some ']' := by
      rw [skipSpace_print, hprint]
      exact fun hc => hbracket (Option.some.inj hc)
    have hbody := parseElems_print elems j (h j (List.mem_cons_self ..))
      (fun k hk => h k (List.mem_cons_of_mem _ hk)) fuel (levels - 1) rest (by omega)
    dsimp only
    rw [if_neg (by decide), if_pos rfl, if_neg hopen, hbody]
    exact map_sequence arr _ _ _ _

private theorem parses_obj {members : List (String × Json String Numeral)}
    (h : ∀ m ∈ members, Parses m.2) : Parses (obj members) := by
  refine Parses.of_succ fun fuel levels rest hfuel _ => ?_
  rw [depth, map]
  cases members with
  | nil =>
    rw [print, List.cons_append, List.singleton_append, parseValue, skipSpace_cons (by decide)]
    cases levels with
    | zero => rfl
    | succ levels => rfl
  | cons m members =>
    obtain ⟨k, j⟩ := m
    rw [print, List.length_cons] at hfuel
    rw [print, List.cons_append, List.append_assoc, List.cons_append, List.append_assoc,
      parseValue, skipSpace_cons (by decide)]
    have hopen : ¬ (skipSpace (printString k ++ ':' :: (print j ++ (printMembers members ++
        rest)))).head? = some '\x7d' := by
      obtain ⟨ds, hds, -⟩ := scanString_printString k
        (':' :: (print j ++ (printMembers members ++ rest)))
      rw [hds, skipSpace_cons (by decide), List.head?_cons]
      decide
    have hbody := parseMembers_print members k j (h (k, j) (List.mem_cons_self ..))
      (fun m hm => h m (List.mem_cons_of_mem _ hm)) fuel (levels - 1) rest (by omega)
    dsimp only
    rw [if_neg (by decide), if_neg (by decide), if_pos rfl, if_neg hopen, hbody]
    exact map_sequence obj _ _ _ _

private theorem parses (j : Json String Numeral) : Parses j := by
  induction j using Json.induct with
  | null => exact Parses.of_succ fun _ _ _ _ _ => rfl
  | bool b => cases b <;> exact Parses.of_succ fun _ _ _ _ _ => rfl
  | num n => exact parses_num n
  | str s => exact parses_str s
  | arr elems ih => exact parses_arr ih
  | obj members ih => exact parses_obj ih

/-- What is printed is read back, unless it is nested too deeply. -/
theorem parse_print (j : Json String Numeral) :
    parse (print j) = if j.depth ≤ maxDepth then some (j.map Numeral.value) else none := by
  have hvalue := parses j (2 * (print j).length + 1) maxDepth [] (by omega)
    (fun c hc => by cases hc)
  rw [List.append_nil] at hvalue
  rw [parse, hvalue]
  by_cases hdepth : j.depth ≤ maxDepth
  · rw [if_pos hdepth, if_pos hdepth]
    rfl
  · rw [if_neg hdepth, if_neg hdepth]

end Json

end Stardust.Core
