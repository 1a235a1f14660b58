import Mathlib.Data.Nat.Digits.Defs
import Mathlib.Tactic.Ring
import Stardust.Redis.Server

/-!
# Range queries on sorted sets

A query in reverse with scores sends a command for the names after the one for the members with
their scores, and then the forward command, so that it returns two lists in one. The query by name
asks for another key and forgets the order. Ranges by score are sent with six decimals.
-/

namespace Stardust.Redis

open Stardust.Core RedisView

/-! ### Ranges -/

/-- How many members a range by rank has depends on how many there are. -/
theorem length_byRank {α : Type} {l l' : List α} (h : l.length = l'.length) (start stop : Int) :
    (byRank start stop l).length = (byRank start stop l').length := by
  unfold byRank segment
  rw [h]
  split_ifs <;> simp [h]

private theorem length_limit {α : Type} {l l' : List α} (h : l.length = l'.length)
    (offset count : Int) : (limit offset count l).length = (limit offset count l').length := by
  unfold limit
  split_ifs <;> simp [h]

private theorem segment_sublist {α : Type} (first last : Int) (l : List α) :
    (segment first last l).Sublist l := by
  unfold segment
  split
  · exact List.nil_sublist l
  · exact (List.take_sublist _ _).trans (List.drop_sublist _ _)

private theorem limit_sublist {α : Type} (offset count : Int) (l : List α) :
    (limit offset count l).Sublist l := by
  unfold limit
  split_ifs
  · exact List.Sublist.refl l
  · exact List.nil_sublist l
  · exact List.drop_sublist _ _
  · exact (List.take_sublist _ _).trans (List.drop_sublist _ _)

private theorem exists_of_map_eq_ok {α β ε : Type} {x : Except ε α} {f : α → β} {b : β}
    (h : x.map f = .ok b) : ∃ a, x = .ok a ∧ f a = b := by
  cases x with
  | error err => cases h
  | ok a => exact ⟨a, rfl, Except.ok.inj h⟩

/-- Members that are each there once, in the order asked for. -/
structure InOrder (reverse : Bool) (members : List ZMember) : Prop where
  ordered : members.Pairwise fun m m' => if reverse then m'.Before m else m.Before m'
  once : (names members).Nodup

private theorem InOrder.sublist {reverse : Bool} {members members' : List ZMember}
    (h : InOrder reverse members) (hsub : members'.Sublist members) : InOrder reverse members' :=
  ⟨h.ordered.sublist hsub, h.once.sublist (hsub.map _)⟩

private theorem InOrder.reverse {members : List ZMember} (h : InOrder false members)
    (reverse : Bool) : InOrder reverse (if reverse then members.reverse else members) := by
  cases reverse with
  | false => exact h
  | true =>
    refine ⟨List.pairwise_reverse.mpr h.ordered, ?_⟩
    rw [names, if_pos rfl, List.map_reverse]
    exact List.nodup_reverse.mpr h.once

namespace SortedSet

variable (set : SortedSet) (reverse : Bool)

private theorem inOrder : InOrder false set.members := ⟨set.ordered, set.nodup⟩

private theorem rangeByRank_inOrder (start stop : Int) :
    InOrder reverse (set.rangeByRank reverse start stop) :=
  (set.inOrder.reverse reverse).sublist (segment_sublist _ _ _)

variable {set} {members : List ZMember}

private theorem sublist_of_inScoreRange {reading : ScoreReading} {min max : String}
    (h : set.inScoreRange reading min max = .ok members) : members.Sublist set.members := by
  unfold inScoreRange at h
  split at h <;> cases h
  exact List.filter_sublist

private theorem sublist_of_inLexRange {min max : String}
    (h : set.inLexRange min max = .ok members) : members.Sublist set.members := by
  unfold inLexRange at h
  split at h <;> cases h
  exact List.filter_sublist

private theorem rangeByScore_inOrder {reading : ScoreReading} {rangeBy : ZRangeBy}
    (h : set.rangeByScore reading reverse rangeBy = .ok members) : InOrder reverse members := by
  obtain ⟨all, hall, rfl⟩ := exists_of_map_eq_ok h
  have hsub := sublist_of_inScoreRange hall
  exact ((set.inOrder.sublist hsub).reverse reverse).sublist (limit_sublist ..)

private theorem rangeByLex_inOrder {rangeBy : ZRangeBy}
    (h : set.rangeByLex reverse rangeBy = .ok members) : InOrder reverse members := by
  obtain ⟨all, hall, rfl⟩ := exists_of_map_eq_ok h
  have hsub := sublist_of_inLexRange hall
  exact ((set.inOrder.sublist hsub).reverse reverse).sublist (limit_sublist ..)

/-- A range has as many members from either end, or fails from both. -/
theorem length_rangeByScore (set : SortedSet) (reading : ScoreReading) (rangeBy : ZRangeBy) :
    (set.rangeByScore reading false rangeBy).map List.length =
      (set.rangeByScore reading true rangeBy).map List.length := by
  unfold rangeByScore
  cases set.inScoreRange reading rangeBy.min rangeBy.max with
  | error err => rfl
  | ok all => exact congrArg Except.ok (length_limit List.length_reverse.symm _ _)

end SortedSet

/-! ### What the queries return -/

/-- The members asked for, with their scores or without. -/
def asked (withScores : Bool) (members : List ZMember) : List ZMember :=
  if withScores then members else (names members).map (⟨0, ·⟩)

/-- A query returns members, each once, in the order and with the scores asked for. -/
def Returns (answer : Except Panic (Outcome (List ZMember))) (reverse withScores : Bool)
    (members : Except RedisError (List ZMember)) : Prop :=
  answer = .ok (members.map (asked withScores)) ∧ ∀ ms, members = .ok ms → InOrder reverse ms

/-- Without scores only the names are told apart. -/
theorem map_asked_false_inj {x y : Except RedisError (List ZMember)} :
    x.map (asked false) = y.map (asked false) ↔ x.map names = y.map names := by
  have hasked : ∀ z : Except RedisError (List ZMember),
      z.map (asked false) = (z.map names).map (List.map (⟨0, ·⟩)) := by
    intro z
    cases z <;> rfl
  have hinj : Function.Injective (List.map fun name : Bytes => (⟨0, name⟩ : ZMember)) :=
    List.map_injective_iff.mpr fun name name' h => congrArg ZMember.member h
  rw [hasked, hasked]
  refine ⟨fun h => ?_, fun h => congrArg _ h⟩
  cases hx : x.map names <;> cases hy : y.map names <;> rw [hx, hy] at h <;>
    simp_all [Except.map, hinj.eq_iff]

/-- The answers to the four commands of a query: a range forwards and backwards, by names and with
scores. -/
structure RangeAnswers (server : Server Command RedisError Db) (db : Db)
    (plain : Command (List Bytes)) (revScores : Command (List ZMember))
    (rev : Command (List Bytes)) (scores : Command (List ZMember))
    (forward backward : Except RedisError (List ZMember)) : Prop where
  plain : server.answer plain db = (forward.map names, db)
  revScores : server.answer revScores db = (backward, db)
  rev : server.answer rev db = (backward.map names, db)
  scores : server.answer scores db = (forward, db)
  length : forward.map List.length = backward.map List.length

/-- A query with all four commands returns what was asked for exactly when it is not one in reverse
with scores, or finds nothing. -/
theorem RangeAnswers.run_iff {server : Server Command RedisError Db} {db : Db}
    {plain rev : Command (List Bytes)} {scores revScores : Command (List ZMember)}
    {forward backward : Except RedisError (List ZMember)}
    (h : RangeAnswers server db plain revScores rev scores forward backward)
    (reverse withScores : Bool) :
    ((rangeQuery plain revScores rev scores reverse withScores).run server db).1 =
        .ok ((if reverse then backward else forward).map (asked withScores)) ↔
      ¬(reverse = true ∧ withScores = true) ∨ ∀ members, backward = .ok members → members = [] := by
  obtain ⟨hplain, hrevScores, hrev, hscores, hlength⟩ := h
  cases forward with
  | error err =>
    cases backward with
    | error err' =>
      cases hlength
      cases reverse <;> cases withScores <;>
        simp [rangeQuery, rangeMembers, rangeScores, bind,
          Client.bind, pure, Client.run, hplain, hscores, hrev, hrevScores, Except.map,
          toRangeZMembers]
    | ok members => cases hlength
  | ok members =>
    cases backward with
    | error err => cases hlength
    | ok members' =>
      have hlength' : members.length = members'.length := Except.ok.inj hlength
      have htwice : (names members').map (⟨0, ·⟩) ++ members = members' ↔ members' = [] := by
        constructor
        · intro heq
          have hsum := congrArg List.length heq
          simp only [names, List.length_append, List.length_map] at hsum
          exact List.eq_nil_of_length_eq_zero (by omega)
        · rintro rfl
          exact List.eq_nil_of_length_eq_zero hlength'
      cases reverse <;> cases withScores <;>
        simp [rangeQuery, rangeMembers, rangeScores, bind,
          Client.bind, pure, Client.run, hplain, hscores, hrev, hrevScores, Except.map,
          toRangeZMembers, asked, htwice]

section Queries

variable (reading : ScoreReading) (rest : Server Command RedisError Db) (r : RedisView) (db : Db)
  (key : String) (reverse withScores : Bool)

private theorem run_zRange_iff (start stop : Int) :
    ((r.zRange key start stop reverse withScores).run (documented reading rest) db).1 =
        .ok (.ok (asked withScores
          ((db.sets (r.expandKey key)).rangeByRank reverse start stop))) ↔
      ¬(reverse = true ∧ withScores = true) ∨
        (db.sets (r.expandKey key)).rangeByRank true start stop = [] := by
  generalize hset : db.sets (r.expandKey key) = set
  have hanswers : RangeAnswers (documented reading rest) db (.zRange (r.expandKey key) start stop)
      (.zRevRangeWithScores (r.expandKey key) start stop)
      (.zRevRange (r.expandKey key) start stop) (.zRangeWithScores (r.expandKey key) start stop)
      (.ok (set.rangeByRank false start stop)) (.ok (set.rangeByRank true start stop)) := by
    subst hset
    exact ⟨rfl, rfl, rfl, rfl, congrArg Except.ok (length_byRank List.length_reverse.symm _ _)⟩
  have hiff := hanswers.run_iff reverse withScores
  have hempty : (∀ members, (Except.ok (set.rangeByRank true start stop) :
      Except RedisError (List ZMember)) = .ok members → members = []) ↔
      set.rangeByRank true start stop = [] := by
    simp
  rw [hempty] at hiff
  cases reverse <;> exact hiff

private theorem run_zRangeByScore_iff (rangeBy : ZRangeBy) :
    ((r.zRangeByScore key rangeBy reverse withScores).run (documented reading rest) db).1 =
        .ok (((db.sets (r.expandKey key)).rangeByScore reading reverse rangeBy).map
          (asked withScores)) ↔
      ¬(reverse = true ∧ withScores = true) ∨ ∀ members,
        (db.sets (r.expandKey key)).rangeByScore reading true rangeBy = .ok members →
          members = [] := by
  generalize hset : db.sets (r.expandKey key) = set
  have hanswers : RangeAnswers (documented reading rest) db
      (.zRangeByScore (r.expandKey key) rangeBy)
      (.zRevRangeByScoreWithScores (r.expandKey key) rangeBy)
      (.zRevRangeByScore (r.expandKey key) rangeBy)
      (.zRangeByScoreWithScores (r.expandKey key) rangeBy)
      (set.rangeByScore reading false rangeBy) (set.rangeByScore reading true rangeBy) := by
    subst hset
    exact ⟨rfl, rfl, rfl, rfl, SortedSet.length_rangeByScore _ reading rangeBy⟩
  have hiff := hanswers.run_iff reverse withScores
  cases reverse <;> exact hiff

/-- The query by name returns what the set under the key as it is has in the range, forwards. -/
theorem run_zRangeByLex (rangeBy : ZRangeBy) :
    ((zRangeByLex key rangeBy reverse).run (documented reading rest) db).1 =
      .ok (((db.sets key).rangeByLex false rangeBy).map (asked false)) := by
  have hforward : (documented reading rest).answer (.zRangeByLex key rangeBy) db =
      (((db.sets key).rangeByLex false rangeBy).map names, db) := rfl
  have hbackward : (documented reading rest).answer (.zRevRangeByLex key rangeBy) db =
      (((db.sets key).rangeByLex true rangeBy).map names, db) := rfl
  cases hnames : (db.sets key).rangeByLex false rangeBy <;>
    cases hnames' : (db.sets key).rangeByLex true rangeBy <;>
    rw [hnames] at hforward <;> rw [hnames'] at hbackward <;>
    cases reverse <;>
    simp [zRangeByLex, rangeMembers, bind, Client.bind, pure, Client.run,
      hforward, hbackward, Except.map, toRangeZMembers, asked]

/-- The queries return what they are asked for exactly when: by rank and by score, the query is not
one in reverse with scores or finds nothing; by name, the set under the key without the prefix has
in the range, in ascending order, what the set under the full key has in the order asked for. -/
theorem range_queries_iff (start stop : Int) (rangeBy : ZRangeBy) :
    (Returns ((r.zRange key start stop reverse withScores).run (documented reading rest) db).1
        reverse withScores (.ok ((db.sets (r.expandKey key)).rangeByRank reverse start stop)) ↔
      ¬(reverse = true ∧ withScores = true) ∨
        (db.sets (r.expandKey key)).rangeByRank true start stop = []) ∧
    (Returns ((r.zRangeByScore key rangeBy reverse withScores).run (documented reading rest) db).1
        reverse withScores ((db.sets (r.expandKey key)).rangeByScore reading reverse rangeBy) ↔
      ¬(reverse = true ∧ withScores = true) ∨ ∀ members,
        (db.sets (r.expandKey key)).rangeByScore reading true rangeBy = .ok members →
          members = []) ∧
    (Returns ((zRangeByLex key rangeBy reverse).run (documented reading rest) db).1
        reverse false ((db.sets (r.expandKey key)).rangeByLex reverse rangeBy) ↔
      ((db.sets key).rangeByLex false rangeBy).map names =
        ((db.sets (r.expandKey key)).rangeByLex reverse rangeBy).map names) := by
  refine ⟨?_, ?_, ?_⟩
  · rw [← run_zRange_iff reading rest r db key reverse withScores start stop]
    refine and_iff_left ?_
    rintro _ ⟨⟩
    exact SortedSet.rangeByRank_inOrder _ reverse start stop
  · rw [← run_zRangeByScore_iff reading rest r db key reverse withScores rangeBy]
    exact and_iff_left fun _ => SortedSet.rangeByScore_inOrder reverse
  · rw [Returns, run_zRangeByLex, Except.ok.injEq, map_asked_false_inj]
    exact and_iff_left fun _ => SortedSet.rangeByLex_inOrder reverse

end Queries

/-- Two members with their scores. -/
def prices : SortedSet where
  members := [⟨1, [97]⟩, ⟨2, [98]⟩]
  ordered := by decide
  nodup := by decide

/-- The members are under one key, with its prefix. -/
def priceDb : Db where
  sets := Function.update (fun _ => ∅) "shop:prices" prices
  hashes _ := ∅

/-- In reverse with scores, every member is returned twice, once without its score and once in the
other order. By name nothing is returned, as the set is under another key. -/
theorem reverse_query_returns_twice :
    ((zRange ⟨"shop"⟩ "prices" 0 (-1) true true).run
        (documented plainReading noCommands) priceDb).1 =
      .ok (.ok [⟨0, [98]⟩, ⟨0, [97]⟩, ⟨1, [97]⟩, ⟨2, [98]⟩]) ∧
    ((zRangeByLex "prices" ⟨"-", "+", 0, 0⟩ true).run
        (documented plainReading noCommands) priceDb).1 = .ok (.ok []) ∧
    (prices.rangeByLex true ⟨"-", "+", 0, 0⟩).map names = .ok [[98], [97]] := by
  decide +kernel

end Stardust.Redis
