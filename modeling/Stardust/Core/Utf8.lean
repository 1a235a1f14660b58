import Mathlib.Data.List.TakeWhile
import Mathlib.Data.String.Basic

/-!
# Go strings

A Go string is a list of octets. Read as UTF-8, every octet that is not part of a character is the
replacement character, so what is read and written again is the same exactly when it is UTF-8.
Parts of URLs are strings with escapes.
-/

namespace Stardust.Core

/-- A Go string. -/
abbrev GoString := List UInt8

namespace Utf8

/-- The octets of a text. -/
def encode (s : List Char) : GoString := s.flatMap String.utf8EncodeChar

/-- The character at the head of some octets. -/
def head (octets : GoString) : Option Char := octets.toByteArray.utf8DecodeChar? 0

/-- The text of some octets, with at most so many characters. -/
def decodeUpTo : Nat → GoString → List Char
  | 0, _ | _, [] => []
  | n + 1, octet :: rest =>
    match head (octet :: rest) with
    | some c => c :: decodeUpTo n ((octet :: rest).drop c.utf8Size)
    | none => '�' :: decodeUpTo n rest

/-- The text of some octets. -/
def decode (octets : GoString) : List Char := decodeUpTo octets.length octets

private theorem head_encode (c : Char) (rest : GoString) :
    head (String.utf8EncodeChar c ++ rest) = some c := by
  rw [head, List.toByteArray_append]
  exact ByteArray.utf8DecodeChar?_utf8EncodeChar_append

private theorem decodeUpTo_encode (s : List Char) (n : Nat) (h : s.length ≤ n) :
    decodeUpTo n (encode s) = s := by
  induction s generalizing n with
  | nil => cases n <;> rfl
  | cons c s ih =>
    obtain ⟨n, rfl⟩ : ∃ m, n = m + 1 := ⟨n - 1, by simp only [List.length_cons] at h; omega⟩
    have hencode : encode (c :: s) = String.utf8EncodeChar c ++ encode s := List.flatMap_cons
    obtain ⟨octet, rest, hcons⟩ : ∃ octet rest, String.utf8EncodeChar c ++ encode s =
        octet :: rest :=
      List.exists_cons_of_ne_nil (by simp [String.utf8EncodeChar_ne_nil])
    have hdrop : (octet :: rest).drop c.utf8Size = encode s := by
      rw [← hcons, List.drop_left' (String.length_utf8EncodeChar c)]
    have hhead := head_encode c (encode s)
    rw [hcons] at hhead
    rw [hencode, hcons, decodeUpTo, hhead]
    dsimp only
    rw [hdrop, ih n (by simpa using h)]

private theorem length_le_encode (s : List Char) : s.length ≤ (encode s).length := by
  induction s with
  | nil => exact Nat.zero_le _
  | cons c s ih =>
    have hpos : 0 < (String.utf8EncodeChar c).length :=
      List.length_pos_iff.mpr String.utf8EncodeChar_ne_nil
    simp only [encode, List.flatMap_cons, List.length_append, List.length_cons] at ih ⊢
    omega

/-- What is written is read back. -/
theorem decode_encode (s : List Char) : decode (encode s) = s :=
  decodeUpTo_encode s _ (length_le_encode s)

end Utf8

/-- The octets of a literal. -/
def bytes (s : String) : GoString := Utf8.encode s.toList

/-- Texts are encoded one after the other. -/
theorem bytes_append (s t : String) : bytes (s ++ t) = bytes s ++ bytes t := by
  simp [bytes, Utf8.encode]

/-- The text before the first occurrence of an octet, and the text after it. -/
def cut (sep : UInt8) (s : GoString) : GoString × GoString :=
  (s.takeWhile (· ≠ sep), (s.dropWhile (· ≠ sep)).drop 1)

/-- The value of a hexadecimal digit. -/
def unhex (c : UInt8) : Option UInt8 :=
  if 0x30 ≤ c ∧ c ≤ 0x39 then some (c - 0x30)
  else if 0x61 ≤ c ∧ c ≤ 0x66 then some (c - 0x61 + 10)
  else if 0x41 ≤ c ∧ c ≤ 0x46 then some (c - 0x41 + 10)
  else none

/-- A part of a URL without its escapes: `%` comes before two digits, and in a query `+` is a
space. -/
def unescape (query : Bool) : GoString → Option GoString
  | [] => some []
  | c :: rest =>
    if c = 0x25 then
      match rest with
      | hi :: lo :: rest => do
        let h ← unhex hi
        let l ← unhex lo
        let rest ← unescape query rest
        some ((h * 16 + l) :: rest)
      | _ => none
    else
      (unescape query rest).map fun rest => (if query ∧ c = 0x2b then 0x20 else c) :: rest

end Stardust.Core
