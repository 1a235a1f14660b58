import Mathlib.Data.List.AList
import Stardust.Core.Glob
import Stardust.Core.Text
import Stardust.Redis.View

/-!
# Hashes and sorted sets on the server

What the server documents for the commands on hashes and sorted sets. A sorted set is kept in its
order, by score and then by name. Ranges are taken by rank, by score or by name, from either end;
every other command is left to a server of its own.
-/

namespace Stardust.Redis

open Stardust.Core

/-- By score, and by name among equal scores. -/
def ZMember.Before (m m' : ZMember) : Prop :=
  m.score < m'.score ∨ m.score = m'.score ∧ m.member < m'.member

instance (m m' : ZMember) : Decidable (m.Before m') := inferInstanceAs (Decidable (_ ∨ _))

/-- The members of a sorted set in their order, each with one score. -/
structure SortedSet where
  members : List ZMember
  ordered : members.Pairwise ZMember.Before
  nodup : (members.map ZMember.member).Nodup

instance : EmptyCollection SortedSet := ⟨⟨[], .nil, .nil⟩⟩

/-- The values of a hash by field. -/
abbrev Hash := AList fun _ : String => Bytes

/-- The sorted sets and hashes by key, empty where there is none. -/
structure Db where
  sets : String → SortedSet
  hashes : String → Hash

/-! ### Ranges -/

/-- The part of a list from one rank to another. -/
def segment {α : Type} (first last : Int) (l : List α) : List α :=
  if first > last then [] else (l.drop first.toNat).take (last - first + 1).toNat

/-- The part of a list between two ranks that count from the end if they are negative. -/
def byRank {α : Type} (start stop : Int) (l : List α) : List α :=
  segment (max 0 (if start < 0 then start + l.length else start))
    (min ((l.length : Int) - 1) (if stop < 0 then stop + l.length else stop)) l

/-- The part of a list that `LIMIT` leaves; the client does not send it when both numbers are
zero, and a negative count stands for all. -/
def limit {α : Type} (offset count : Int) (l : List α) : List α :=
  if offset = 0 ∧ count = 0 then l
  else if offset < 0 then []
  else if count < 0 then l.drop offset.toNat
  else (l.drop offset.toNat).take count.toNat

/-- One end of a range by score. -/
inductive ScoreLimit where
  | negInf
  | posInf
  | at (score : ℚ) (exclusive : Bool)
  deriving DecidableEq, Repr

/-- A score is not below the lower end of a range. -/
def ScoreLimit.fromBelow : ScoreLimit → ℚ → Bool
  | .negInf, _ => true
  | .posInf, _ => false
  | .at low exclusive, score => if exclusive then low < score else low ≤ score

/-- A score is not above the upper end of a range. -/
def ScoreLimit.fromAbove : ScoreLimit → ℚ → Bool
  | .negInf, _ => false
  | .posInf, _ => true
  | .at high exclusive, score => if exclusive then score < high else score ≤ high

/-- One end of a range by name. -/
inductive LexLimit where
  | first
  | last
  | at (name : Bytes) (exclusive : Bool)
  deriving DecidableEq, Repr

/-- A name is not below the lower end of a range. -/
def LexLimit.fromBelow : LexLimit → Bytes → Bool
  | .first, _ => true
  | .last, _ => false
  | .at low exclusive, name => if exclusive then low < name else low ≤ name

/-- A name is not above the upper end of a range. -/
def LexLimit.fromAbove : LexLimit → Bytes → Bool
  | .first, _ => false
  | .last, _ => true
  | .at high exclusive, name => if exclusive then name < high else name ≤ high

/-- The end of a range by name that a text stands for. -/
def readLex (text : String) : Except RedisError LexLimit :=
  match text.toList with
  | ['-'] => .ok .first
  | ['+'] => .ok .last
  | '[' :: name => .ok (.at (utf8 (String.ofList name)) false)
  | '(' :: name => .ok (.at (utf8 (String.ofList name)) true)
  | _ => .error (.server "ERR min or max not valid string range item")

/-- Whether a text begins with a minus sign, and what follows. -/
def readSign : List Char → Bool × List Char
  | '-' :: digits => (true, digits)
  | digits => (false, digits)

/-- The number that digits on both sides of a point stand for. -/
def readPoint (digits : List Char) : Option ℚ :=
  match digits.splitOn '.' with
  | [whole, decimals] =>
    (parseDigits whole).bind fun whole => (parseDigits decimals).map fun fraction =>
      (whole : ℚ) + fraction / 10 ^ decimals.length
  | _ => none

/-- The number that a decimal text stands for. -/
def parseDecimal (text : String) : Option ℚ :=
  (readPoint (readSign text.toList).2).map fun value =>
    if (readSign text.toList).1 then -value else value

/-- How the server reads the ends of ranges by score: decimal texts as their numbers, which belong
to the range. -/
structure ScoreReading where
  read : String → Except RedisError ScoreLimit
  decimal : ∀ text score, parseDecimal text = some score → read text = .ok (.at score false)

/-- Decimal texts, the infinities, and decimal texts whose numbers do not belong to the range. -/
def plainReading : ScoreReading where
  read text :=
    match parseDecimal text, text.toList with
    | some score, _ => .ok (.at score false)
    | none, ['-', 'i', 'n', 'f'] => .ok .negInf
    | none, ['+', 'i', 'n', 'f'] => .ok .posInf
    | none, '(' :: digits =>
      match parseDecimal (String.ofList digits) with
      | some score => .ok (.at score true)
      | none => .error (.server "ERR min or max is not a float")
    | none, _ => .error (.server "ERR min or max is not a float")
  decimal text score h := by rw [h]

namespace SortedSet

variable (set : SortedSet)

/-- The members whose scores lie between two limits. -/
def between (min max : ScoreLimit) : List ZMember :=
  set.members.filter fun m => min.fromBelow m.score && max.fromAbove m.score

/-- The set without the members whose scores lie between two limits. -/
def removeBetween (min max : ScoreLimit) : SortedSet where
  members := set.members.filter fun m => !(min.fromBelow m.score && max.fromAbove m.score)
  ordered := set.ordered.filter _
  nodup := set.nodup.sublist (List.filter_sublist.map _)

/-- The members in a range by score, with the limits as texts. -/
def inScoreRange (reading : ScoreReading) (min max : String) : Except RedisError (List ZMember) :=
  match reading.read min, reading.read max with
  | .ok min, .ok max => .ok (set.between min max)
  | .error err, _ | _, .error err => .error err

/-- The members in a range by name, with the limits as texts. -/
def inLexRange (min max : String) : Except RedisError (List ZMember) :=
  match readLex min, readLex max with
  | .ok min, .ok max =>
    .ok (set.members.filter fun m => min.fromBelow m.member && max.fromAbove m.member)
  | .error err, _ | _, .error err => .error err

/-- The members between two ranks, from either end. -/
def rangeByRank (reverse : Bool) (start stop : Int) : List ZMember :=
  byRank start stop (if reverse then set.members.reverse else set.members)

/-- The members in a range by score, from either end. -/
def rangeByScore (reading : ScoreReading) (reverse : Bool) (rangeBy : ZRangeBy) :
    Except RedisError (List ZMember) :=
  (set.inScoreRange reading rangeBy.min rangeBy.max).map fun members =>
    limit rangeBy.offset rangeBy.count (if reverse then members.reverse else members)

/-- The members in a range by name, from either end. -/
def rangeByLex (reverse : Bool) (rangeBy : ZRangeBy) : Except RedisError (List ZMember) :=
  (set.inLexRange rangeBy.min rangeBy.max).map fun members =>
    limit rangeBy.offset rangeBy.count (if reverse then members.reverse else members)

end SortedSet

/-- The names of members. -/
def names (members : List ZMember) : List Bytes := members.map ZMember.member

/-- The hash after fields were written in their order. -/
def Hash.write (hash : Hash) (values : List (String × Bytes)) : Hash :=
  values.foldl (fun hash entry => hash.insert entry.1 entry.2) hash

/-- The fields with their values. -/
def Hash.pairs (hash : Hash) : List (String × Bytes) :=
  hash.entries.map fun entry => (entry.1, entry.2)

/-- The value of a field as a reply has it. -/
def Hash.reply (hash : Hash) (field : String) : Interface :=
  match hash.lookup field with
  | some value => .string value
  | none => .nil

/-- A command with too few arguments. -/
def arityError (command : String) : RedisError :=
  .server ("ERR wrong number of arguments for '" ++ command ++ "' command")

/-- The documented replies, with another server for all other commands. -/
def documented (reading : ScoreReading) (rest : Server Command RedisError Db) :
    Server Command RedisError Db where
  answer {β} command db :=
    match β, command with
    | _, .hMSet key values =>
      if values = [] then (.error (arityError "hmset"), db)
      else
        (.ok true,
          { db with hashes := Function.update db.hashes key ((db.hashes key).write values) })
    | _, .hMGet key fields =>
      if fields = [] then (.error (arityError "hmget"), db)
      else (.ok (fields.map (db.hashes key).reply), db)
    | _, .hGetAll key => (.ok (db.hashes key).pairs, db)
    | _, .zRange key start stop => (.ok (names ((db.sets key).rangeByRank false start stop)), db)
    | _, .zRangeWithScores key start stop => (.ok ((db.sets key).rangeByRank false start stop), db)
    | _, .zRevRange key start stop => (.ok (names ((db.sets key).rangeByRank true start stop)), db)
    | _, .zRevRangeWithScores key start stop =>
      (.ok ((db.sets key).rangeByRank true start stop), db)
    | _, .zRangeByScore key rangeBy =>
      (((db.sets key).rangeByScore reading false rangeBy).map names, db)
    | _, .zRangeByScoreWithScores key rangeBy =>
      ((db.sets key).rangeByScore reading false rangeBy, db)
    | _, .zRevRangeByScore key rangeBy =>
      (((db.sets key).rangeByScore reading true rangeBy).map names, db)
    | _, .zRevRangeByScoreWithScores key rangeBy =>
      ((db.sets key).rangeByScore reading true rangeBy, db)
    | _, .zRangeByLex key rangeBy => (((db.sets key).rangeByLex false rangeBy).map names, db)
    | _, .zRevRangeByLex key rangeBy => (((db.sets key).rangeByLex true rangeBy).map names, db)
    | _, .zCount key min max =>
      (((db.sets key).inScoreRange reading min max).map fun members => (members.length : Int), db)
    | _, .zRemRangeByScore key min max =>
      match reading.read min, reading.read max with
      | .ok min, .ok max =>
        (.ok ((db.sets key).between min max).length,
          { db with sets := Function.update db.sets key ((db.sets key).removeBetween min max) })
      | .error err, _ | _, .error err => (.error err, db)
    | _, command => rest.answer command db

/-- A server that knows no command. -/
def noCommands : Server Command RedisError Db where
  answer _ db := (.error (.server "ERR unknown command"), db)

end Stardust.Redis
