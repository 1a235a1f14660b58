import Mathlib.Data.List.Infix
import Mathlib.Data.String.Basic

/-!
# Glob patterns over bytes

A pattern is read into items, each of which matches one byte or, for a star, any number of them.
Classes may be negated, have ranges and escaped bytes, and end with the pattern if they are not
closed. The matcher is structural on the items.
-/

namespace Stardust.Core

/-- The bytes of a text. -/
def utf8 (s : String) : List UInt8 := s.toList.flatMap String.utf8EncodeChar

@[simp] theorem utf8_append (s t : String) : utf8 (s ++ t) = utf8 s ++ utf8 t := by
  simp only [utf8, String.toList_append, List.flatMap_append]

namespace Glob

/-- A part of a class of bytes. -/
inductive ClassItem where
  | byte (c : UInt8)
  | range (a b : UInt8)
  deriving DecidableEq

/-- A range may be given from either end. -/
def ClassItem.has (c : UInt8) : ClassItem → Bool
  | byte d => c = d
  | range a b => (min a b ≤ c) && (c ≤ max a b)

/-- One item of a pattern. -/
inductive Item where
  /-- Any number of bytes. -/
  | star
  /-- Any one byte. -/
  | any
  | byte (c : UInt8)
  | cls (negated : Bool) (items : List ClassItem)
  deriving DecidableEq

/-- One byte matches an item that is no star. -/
def Item.accepts (c : UInt8) : Item → Bool
  | star => false
  | any => true
  | byte d => d = c
  | cls negated items => items.any (ClassItem.has c) != negated

/-- `*` -/
def starByte : UInt8 := 0x2A

/-- `?` -/
def anyByte : UInt8 := 0x3F

/-- `[` -/
def openByte : UInt8 := 0x5B

/-- `]` -/
def closeByte : UInt8 := 0x5D

/-- `^` -/
def caretByte : UInt8 := 0x5E

/-- `-` -/
def dashByte : UInt8 := 0x2D

/-- A backslash. -/
def escapeByte : UInt8 := 0x5C

mutual

/-- The items of a pattern. -/
def parse : List UInt8 → List Item
  | [] => []
  | c :: rest =>
    if c = starByte then .star :: parse rest
    else if c = anyByte then .any :: parse rest
    else if c = openByte then
      match rest with
      | [] => parseClass false [] []
      | d :: rest =>
        if d = caretByte then parseClass true [] rest else parseClass false [] (d :: rest)
    else if c = escapeByte then
      match rest with
      | [] => [.byte c]
      | d :: rest => .byte d :: parse rest
    else .byte c :: parse rest

/-- The rest of a class and the items after it. -/
def parseClass (negated : Bool) (items : List ClassItem) : List UInt8 → List Item
  | [] => [.cls negated items]
  | [c] =>
    if c = closeByte then [.cls negated items] else [.cls negated (items ++ [.byte c])]
  | [c, d] =>
    if c = escapeByte then [.cls negated (items ++ [.byte d])]
    else if c = closeByte then .cls negated items :: parse [d]
    else parseClass negated (items ++ [.byte c]) [d]
  | c :: d :: e :: rest =>
    if c = escapeByte then parseClass negated (items ++ [.byte d]) (e :: rest)
    else if c = closeByte then .cls negated items :: parse (d :: e :: rest)
    else if d = dashByte then parseClass negated (items ++ [.range c e]) rest
    else parseClass negated (items ++ [.byte c]) (d :: e :: rest)

end

/-- The items match a text as a whole. -/
def matchItems : List Item → List UInt8 → Bool
  | [], s => s.isEmpty
  | .star :: items, s => s.tails.any (matchItems items)
  | _ :: _, [] => false
  | item :: items, c :: s => item.accepts c && matchItems items s

/-- A byte that stands for itself outside classes. -/
def Plain (c : UInt8) : Prop := c ≠ starByte ∧ c ≠ anyByte ∧ c ≠ openByte ∧ c ≠ escapeByte

instance (c : UInt8) : Decidable (Plain c) := inferInstanceAs (Decidable (_ ∧ _))

/-- Plain bytes are read one by one. -/
theorem parse_plain_append {w : List UInt8} (hw : ∀ c ∈ w, Plain c) (rest : List UInt8) :
    parse (w ++ rest) = w.map Item.byte ++ parse rest := by
  induction w with
  | nil => rfl
  | cons c w ih =>
    obtain ⟨⟨hstar, hany, hopen, hescape⟩, hw⟩ := List.forall_mem_cons.mp hw
    rw [List.cons_append, parse.eq_def]
    simp only [if_neg hstar, if_neg hany, if_neg hopen, if_neg hescape, ih hw]
    rfl

/-- A star is an item. -/
theorem parse_star (rest : List UInt8) : parse (starByte :: rest) = .star :: parse rest := by
  rw [parse.eq_def]
  simp only [if_true]

/-- Bytes match themselves. -/
theorem matchItems_bytes {w : List UInt8} {items : List Item} {s : List UInt8} :
    matchItems (w.map Item.byte ++ items) s = true ↔
      ∃ t, s = w ++ t ∧ matchItems items t = true := by
  induction w generalizing s with
  | nil => simp
  | cons c w ih =>
    cases s with
    | nil => simp [matchItems]
    | cons d s =>
      simp only [List.map_cons, List.cons_append, matchItems, Item.accepts, Bool.and_eq_true,
        decide_eq_true_eq, ih, List.cons.injEq]
      grind

/-- A star matches anything in front. -/
theorem matchItems_star {items : List Item} {s : List UInt8} :
    matchItems (.star :: items) s = true ↔
      ∃ x t, s = x ++ t ∧ matchItems items t = true := by
  simp only [matchItems, List.any_eq_true, List.mem_tails]
  constructor
  · rintro ⟨t, ⟨x, hx⟩, ht⟩
    exact ⟨x, t, hx.symm, ht⟩
  · rintro ⟨x, t, rfl, ht⟩
    exact ⟨t, ⟨x, rfl⟩, ht⟩

end Glob

/-- A pattern matches a text. -/
def globMatches (pattern s : String) : Bool :=
  Glob.matchItems (Glob.parse (utf8 pattern)) (utf8 s)

end Stardust.Core
