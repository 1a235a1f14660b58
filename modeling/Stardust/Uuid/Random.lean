import Mathlib.Data.List.Basic

/-!
# Random strings and bytes

Each generator appends letters of an alphabet to a container, one for each random draw. The
strings start from an empty container, the bytes from one that has the requested length already.
-/

namespace Stardust.Uuid

/-- The `str` of `GenBytes` and `GenString`. -/
def letters : List Char :=
  "abcdefghijklmnopqrstuvwxyzABCDEFGHIJKLMNOPQRSTUVWXYZ1234567890".toList

section Loop

variable {α : Type*} (str : List α) (draws : Nat → Fin str.length)

/-- The loop of the generators: `rand.Int` draws below the length of `str`, and its error is
dropped. -/
def appendDraws (len : Nat) (container : List α) : List α :=
  (List.range len).foldl (fun container i => container ++ [str.get (draws i)]) container

/-- The loop keeps the container and adds the letters drawn. -/
theorem appendDraws_eq (len : Nat) (container : List α) :
    appendDraws str draws len container =
      container ++ (List.range len).map fun i => str.get (draws i) := by
  induction len with
  | zero => simp [appendDraws]
  | succ len ih =>
    unfold appendDraws at ih ⊢
    rw [List.range_succ, List.foldl_append, ih, List.map_append, ← List.append_assoc]
    rfl

/-- What was not in the container before is from the alphabet. -/
theorem mem_of_mem_appendDraws {len : Nat} {container : List α} {c : α}
    (h : c ∈ appendDraws str draws len container) : c ∈ container ∨ c ∈ str := by
  rw [appendDraws_eq, List.mem_append, List.mem_map] at h
  rcases h with h | ⟨i, -, rfl⟩
  · exact .inl h
  · exact .inr (List.get_mem str (draws i))

end Loop

/-- What `make([]byte, len)` gives. -/
def makeBytes (len : Int) : Except String (List UInt8) :=
  if len < 0 then .error "runtime error: makeslice: len out of range"
  else .ok (List.replicate len.toNat 0)

/-- The bytes of `letters`, as the source indexes its text. -/
def letterBytes : List UInt8 := letters.map Char.toUInt8

/-- The letters are appended to what `make` has filled. -/
def genBytes (len : Int) (draws : Nat → Fin letterBytes.length) : Except String (List UInt8) := do
  let container ← makeBytes len
  return appendDraws letterBytes draws len.toNat container

/-- A random text over the letters. -/
def genString (len : Int) (draws : Nat → Fin letters.length) : String :=
  String.ofList (appendDraws letters draws len.toNat [])

/-- A text of a length whose characters are from an alphabet. -/
def Shaped {α : Type*} (str : List α) (n : Nat) (cs : List α) : Prop :=
  cs.length = n ∧ ∀ c ∈ cs, c ∈ str

/-- What starts from nothing is as long as requested. -/
theorem shaped_appendDraws {α : Type*} (str : List α) (draws : Nat → Fin str.length) (n : Nat) :
    Shaped str n (appendDraws str draws n []) := by
  refine ⟨by simp [appendDraws_eq], fun c hc => ?_⟩
  exact (mem_of_mem_appendDraws str draws hc).resolve_left List.not_mem_nil

/-- The bytes asked for come after as many zeros. -/
theorem genBytes_eq (n : Nat) (draws : Nat → Fin letterBytes.length) :
    genBytes n draws = .ok (List.replicate n 0 ++
      (List.range n).map fun i => letterBytes.get (draws i)) := by
  have hmake : makeBytes n = .ok (List.replicate n 0) := by
    rw [makeBytes, if_neg (by omega), Int.toNat_natCast]
  unfold genBytes
  rw [hmake, Int.toNat_natCast, ← appendDraws_eq]
  rfl

/-- Strings have the requested shape for all draws, bytes only if none are requested: there are
twice as many of them, and the first half is zero. -/
theorem genBytes_shaped_iff (n : Nat) (draws : Nat → Fin letterBytes.length)
    (stringDraws : Nat → Fin letters.length) :
    Shaped letters n (genString n stringDraws).toList ∧
      ((∃ bytes, genBytes n draws = .ok bytes ∧ Shaped letterBytes n bytes) ↔ n = 0) := by
  have hstring : Shaped letters n (genString n stringDraws).toList := by
    rw [genString, String.toList_ofList]
    exact shaped_appendDraws letters stringDraws n
  refine ⟨hstring, ?_⟩
  rw [genBytes_eq]
  constructor
  · rintro ⟨bytes, hbytes, hlength, -⟩
    obtain rfl := Except.ok.inj hbytes
    simp only [List.length_append, List.length_replicate, List.length_map, List.length_range]
      at hlength
    omega
  · rintro rfl
    exact ⟨_, rfl, rfl, fun _ h => absurd h List.not_mem_nil⟩

/-- One byte is requested, and a zero byte comes first. -/
theorem genBytes_one : genBytes 1 (fun _ => ⟨0, by decide⟩) = .ok [0, 97] ∧
    ¬ Shaped letterBytes 1 [0, 97] ∧ 0 ∉ letterBytes := by
  refine ⟨by decide, ?_, by decide⟩
  rintro ⟨hlength, -⟩
  exact absurd hlength (by decide)

end Stardust.Uuid
