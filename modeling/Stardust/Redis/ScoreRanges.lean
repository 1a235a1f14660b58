import Mathlib.Data.Nat.Digits.Defs
import Mathlib.Tactic.FieldSimp
import Mathlib.Tactic.Ring
import Stardust.Redis.SortedSets

/-!
# The limits of ranges by score

The limits of a range by score are sent with six decimals. What is counted and what is removed are
the members between the rounded limits.
-/

namespace Stardust.Redis

open Stardust.Core Function

/-! ### Texts of numbers -/

/-- Digits on both sides of a point are read as the number that they are. -/
theorem readPoint_eq {whole decimals : List Char} {a b : Nat} (hwhole : parseDigits whole = some a)
    (hdecimals : parseDigits decimals = some b) :
    readPoint (whole ++ '.' :: decimals) = some ((a : ℚ) + b / 10 ^ decimals.length) := by
  have hpoint : '.' ∉ whole := fun h => absurd ((digits_of_parseDigits hwhole).2 _ h) (by decide)
  have hpoint' : '.' ∉ decimals :=
    fun h => absurd ((digits_of_parseDigits hdecimals).2 _ h) (by decide)
  have hsplit : (whole ++ '.' :: decimals).splitOn '.' =
      whole.splitOn '.' ++ decimals.splitOn '.' := List.splitOnP_append_cons _ _ rfl
  rw [List.splitOn_eq_singleton hpoint, List.splitOn_eq_singleton hpoint'] at hsplit
  simp [readPoint, hsplit, hwhole, hdecimals]

private theorem readSign_of_ne {c : Char} (h : c ≠ '-') (digits : List Char) :
    readSign (c :: digits) = (false, c :: digits) := by
  unfold readSign
  split
  · next heq => exact absurd (List.cons.inj heq).1 h
  · rfl

/-- A sign is read where there is one. -/
theorem parseDecimal_eq {text : String} {negative : Bool} {digits : List Char} {value : ℚ}
    {c : Char} (htext : text.toList = (if negative then ['-'] else []) ++ c :: digits)
    (hc : c ≠ '-') (hvalue : readPoint (c :: digits) = some value) :
    parseDecimal text = some (if negative then -value else value) := by
  unfold parseDecimal
  cases negative with
  | true =>
    have hsign : readSign text.toList = (true, c :: digits) := by rw [htext]; rfl
    rw [hsign, hvalue]
    rfl
  | false =>
    have hsign : readSign text.toList = (false, c :: digits) := by
      rw [htext]
      exact readSign_of_ne hc digits
    rw [hsign, hvalue]
    rfl

/-- A number rounded to six decimals, to the even one of two. -/
def sixDecimals (x : ℚ) : ℚ :=
  if x < 0 then -(roundHalfEven (|x| * 1000000) / 1000000)
  else roundHalfEven (|x| * 1000000) / 1000000

private theorem roundHalfEven_nonneg {x : ℚ} (h : 0 ≤ x) : 0 ≤ roundHalfEven x := by
  have hfloor : 0 ≤ ⌊x⌋ := Int.floor_nonneg.mpr h
  unfold roundHalfEven
  dsimp only
  split_ifs <;> omega

/-- The text of a number is read as the number rounded to six decimals. -/
theorem parseDecimal_formatFloat (x : ℚ) : parseDecimal (formatFloat x) = some (sixDecimals x) := by
  have hnonneg := roundHalfEven_nonneg (x := |x| * 1000000) (by positivity)
  obtain ⟨m, hm⟩ := Int.eq_ofNat_of_zero_le hnonneg
  have hlength : (toString (m % 1000000)).length ≤ 6 :=
    Nat.repr_length (m % 1000000) 6 (by decide) (Nat.mod_lt _ (by decide))
  have hdecimals : parseDigits (List.replicate (6 - (toString (m % 1000000)).length) '0' ++
      (toString (m % 1000000)).toList) = some (m % 1000000) := by
    rw [parseDigits_replicate_zero, parseDigits_toString]
    exact (digits_of_parseDigits (parseDigits_toString _)).1
  have hsix : (List.replicate (6 - (toString (m % 1000000)).length) '0' ++
      (toString (m % 1000000)).toList).length = 6 := by
    rw [List.length_append, List.length_replicate, String.length_toList]
    omega
  have hvalue : ((m / 1000000 : Nat) : ℚ) + (m % 1000000 : Nat) / 10 ^ 6 = (m : ℚ) / 1000000 := by
    have hdiv : ((1000000 * (m / 1000000) + m % 1000000 : Nat) : ℚ) = m := by
      rw [Nat.div_add_mod]
    rw [← hdiv]
    push_cast
    ring
  have hread := readPoint_eq (parseDigits_toString (m / 1000000)) hdecimals
  obtain ⟨hne, hdigits⟩ := digits_of_parseDigits (parseDigits_toString (m / 1000000))
  obtain ⟨c, rest, hwhole⟩ := List.exists_cons_of_ne_nil hne
  have hc : c ≠ '-' := by
    rintro rfl
    exact absurd (hdigits '-' (by rw [hwhole]; exact List.mem_cons_self ..)) (by decide)
  have htext : (formatFloat x).toList = (if decide (x < 0) then ['-'] else []) ++
      ((toString (m / 1000000)).toList ++ '.' ::
        (List.replicate (6 - (toString (m % 1000000)).length) '0' ++
          (toString (m % 1000000)).toList)) := by
    unfold formatFloat
    rw [hm]
    by_cases hx : x < 0 <;> simp [hx]
  rw [hsix, hvalue] at hread
  rw [hwhole] at htext hread
  rw [parseDecimal_eq htext hc hread, sixDecimals, hm]
  by_cases hx : x < 0 <;> simp [hx]

/-! ### Members in a range -/

/-- The score of a member lies in a range, whose limits belong to it. -/
def InScores (min max : ℚ) (m : ZMember) : Prop := min ≤ m.score ∧ m.score ≤ max

instance (min max : ℚ) : DecidablePred (InScores min max) :=
  fun m => inferInstanceAs (Decidable (min ≤ m.score ∧ m.score ≤ max))

private theorem between_at (min max : ℚ) (m : ZMember) :
    ((ScoreLimit.at min false).fromBelow m.score && (ScoreLimit.at max false).fromAbove m.score) =
      decide (InScores min max m) :=
  (Bool.decide_and _ _).symm

section Queries

variable (reading : ScoreReading) (rest : Server Command RedisError Db) (r : RedisView) (db : Db)
  (key : String) (min max : ℚ)

private theorem ScoreReading.read_formatFloat (x : ℚ) :
    reading.read (formatFloat x) = .ok (.at (sixDecimals x) false) :=
  reading.decimal _ _ (parseDecimal_formatFloat x)

private theorem members_between (set : SortedSet) :
    set.between (.at min false) (.at max false) = set.members.filter (InScores min max ·) := by
  simp only [SortedSet.between, between_at]

private theorem members_removeBetween (set : SortedSet) :
    (set.removeBetween (.at min false) (.at max false)).members =
      set.members.filter (¬InScores min max ·) := by
  simp only [SortedSet.removeBetween, between_at, decide_not]

/-- What is removed are the members between the rounded limits. -/
theorem run_zRemRangeByScore (key : String) :
    (r.zRemRangeByScore key min max).run (documented reading rest) db =
      let set := db.sets (r.expandKey key)
      let low := ScoreLimit.at (sixDecimals min) false
      let high := ScoreLimit.at (sixDecimals max) false
      (.ok (.ok (set.between low high).length),
        { db with
          sets := update db.sets (r.expandKey key) (set.removeBetween low high) }) := by
  simp only [RedisView.zRemRangeByScore, result, Client.run, documented, reading.read_formatFloat]

/-- What is counted are the members between the rounded limits. -/
theorem run_zCount (key : String) :
    (r.zCount key min max).run (documented reading rest) db =
      (.ok (.ok ((db.sets (r.expandKey key)).between (.at (sixDecimals min) false)
        (.at (sixDecimals max) false)).length), db) := by
  simp only [RedisView.zCount, result, Client.run, documented, SortedSet.inScoreRange,
    reading.read_formatFloat]
  rfl

/-- The members in a range are removed and counted, and no others. -/
def ScoreRangeExact : Prop :=
  let set := db.sets (r.expandKey key)
  let count : Int := (set.members.filter (InScores min max ·)).length
  (∃ db', (r.zRemRangeByScore key min max).run (documented reading rest) db =
      (.ok (.ok count), db') ∧
    (db'.sets (r.expandKey key)).members = set.members.filter (¬InScores min max ·)) ∧
  ((r.zCount key min max).run (documented reading rest) db).1 = .ok (.ok count)

/-- Ranges by score are exact exactly when rounding their limits moves them past no member. -/
theorem score_range_exact_iff :
    ScoreRangeExact reading rest r db key min max ↔
      ∀ m ∈ (db.sets (r.expandKey key)).members,
        (InScores min max m ↔ InScores (sixDecimals min) (sixDecimals max) m) := by
  generalize hset : db.sets (r.expandKey key) = set
  simp only [ScoreRangeExact, run_zRemRangeByScore, run_zCount, hset, members_between]
  constructor
  · rintro ⟨⟨db', hrun, hmembers⟩, -⟩ m hm
    rw [← (Prod.mk.inj hrun).2] at hmembers
    dsimp only at hmembers
    rw [update_self, members_removeBetween] at hmembers
    have hmem : m ∈ set.members.filter (¬InScores (sixDecimals min) (sixDecimals max) ·) ↔
        m ∈ set.members.filter (¬InScores min max ·) := by rw [hmembers]
    simp only [List.mem_filter, hm, true_and, decide_eq_true_eq] at hmem
    exact not_iff_not.mp hmem.symm
  · intro hsame
    have hin : set.members.filter (InScores (sixDecimals min) (sixDecimals max) ·) =
        set.members.filter (InScores min max ·) :=
      List.filter_congr fun m hm => decide_eq_decide.mpr (hsame m hm).symm
    have hout : set.members.filter (¬InScores (sixDecimals min) (sixDecimals max) ·) =
        set.members.filter (¬InScores min max ·) :=
      List.filter_congr fun m hm => decide_eq_decide.mpr (not_congr (hsame m hm).symm)
    rw [hin]
    refine ⟨⟨_, rfl, ?_⟩, rfl⟩
    dsimp only
    rw [update_self, members_removeBetween, hout]

end Queries

/-- A member at zero. -/
def zeroDb : Db where
  sets := update (fun _ => ∅) "shop:prices"
    ⟨[⟨0, [97]⟩], List.pairwise_singleton _ _, List.nodup_singleton _⟩
  hashes _ := ∅

/-- The limit 2⁻²² is sent as zero, and the member at zero, which is below it, is removed. -/
theorem score_range_removes_below :
    ¬InScores (1 / 2 ^ 22) 1 ⟨0, [97]⟩ ∧ formatFloat (1 / 2 ^ 22) = "0.000000" ∧
      ((RedisView.zRemRangeByScore ⟨"shop"⟩ "prices" (1 / 2 ^ 22) 1).run
        (documented plainReading noCommands) zeroDb).1 = .ok (.ok 1) := by
  decide +kernel

end Stardust.Redis
