import Stardust.Redis.Command
import Mathlib.Data.Rat.Floor

/-!
# The Redis view

A view puts its prefix before the keys of its caller and sends commands. Every operation is
a client program over the commands, with the errors of the client and of the server as results.
The reading of durations and the random part of a key are inputs. Pointers are not nil.
-/

namespace Stardust.Redis

open Stardust.Core

/-- Why an operation failed. -/
inductive RedisError where
  | server (text : String)
  | duration (text : String)
  | storeUnsupported
  | inputValuesIsNil
  | resultNotOK
  | resultNotTrue
  | notImplemented
  deriving DecidableEq, Repr

/-- A type assertion on a value of another type. -/
inductive Panic where
  | typeAssertion (value : Interface)
  deriving DecidableEq, Repr

/-- Programs that send commands. -/
abbrev Sends := Client Command RedisError Panic

/-- What an operation returns. -/
abbrev Outcome := Except RedisError

/-- A result that is checked before it is dropped. -/
inductive Result where
  | bool (b : Bool)
  | string (s : String)
  | int (n : Int)
  deriving DecidableEq, Repr

/-- Send a command and return its result. -/
def result {β : Type} (command : Command β) : Sends (Outcome β) := .send command .ret

/-- Send a command and return its result after a conversion. -/
def mapResult {α β : Type} (command : Command β) (f : β → α) : Sends (Outcome α) :=
  .send command fun r => .ret (r.map f)

/-- Send a command and turn a negative result into an error. -/
def wrapResult {β : Type} (command : Command β) (f : β → Result) : Sends (Outcome Unit) :=
  .send command fun r => .ret <| match r.map f with
    | .error err => .error err
    | .ok (.bool b) => if b = true then .ok () else .error .resultNotTrue
    | .ok (.string s) => if s = "OK" then .ok () else .error .resultNotOK
    | .ok (.int _) => .ok ()

/-- The nearest integer, the even one of two. -/
def roundHalfEven (x : ℚ) : Int :=
  let low := ⌊x⌋
  if x - low < 1 / 2 then low
  else if 1 / 2 < x - low then low + 1
  else if low % 2 = 0 then low else low + 1

/-- A number with six decimals. -/
def formatFloat (x : ℚ) : String :=
  let millionths := (roundHalfEven (|x| * 1000000)).toNat
  let decimals := toString (millionths % 1000000)
  (if x < 0 then "-" else "") ++ toString (millionths / 1000000) ++ "." ++
    String.ofList (List.replicate (6 - decimals.length) '0') ++ decimals

/-- The text of a character by its number, as a conversion from an integer gives it. -/
def runeString (n : Int) : String :=
  if h : 0 ≤ n ∧ n.toNat.isValidChar then (Char.ofNatAux n.toNat h.2).toString
  else "�"

/-- A view. -/
structure RedisView where
  keyPrefix : String
  deriving DecidableEq, Repr

/-- What stands between a prefix and a key. -/
def redisKeySep : String := ":"

namespace RedisView

/-- The key as the server sees it. -/
def expandKey (r : RedisView) (suffix : String) : String := r.keyPrefix ++ redisKeySep ++ suffix

/-- No key expands to itself. -/
theorem expandKey_ne (r : RedisView) (key : String) : r.expandKey key ≠ key := by
  intro h
  have hlength := congrArg String.length h
  simp [expandKey, redisKeySep] at hlength

/-- Different keys expand differently. -/
theorem expandKey_inj {r : RedisView} {key key' : String} :
    r.expandKey key = r.expandKey key' ↔ key = key' := by
  refine ⟨fun h => ?_, fun h => congrArg _ h⟩
  have hlist := congrArg String.toList h
  simp only [expandKey, String.toList_append, List.append_cancel_left_eq] at hlist
  exact String.toList_injective hlist

section Strings

variable (parseDuration : String → Except RedisError Int) (r : RedisView)

/-- The expiration that a duration stands for, none for the empty text. -/
def expiration (duration : String) : Except RedisError Int :=
  if duration ≠ "" then parseDuration duration else .ok 0

/-- Set a value unless there is one. -/
def setNX (key : String) (value : Bytes) (duration : String) : Sends (Outcome Bool) :=
  match expiration parseDuration duration with
  | .error err => .ret (.error err)
  | .ok timeout => result (.setNX (r.expandKey key) value timeout)

/-- Read a value. -/
def get (key : String) : Sends (Outcome Bytes) := result (.get (r.expandKey key))

/-- Set a value with a time to live. -/
def set (key : String) (value : Bytes) (duration : String) : Sends (Outcome Unit) :=
  match expiration parseDuration duration with
  | .error err => .ret (.error err)
  | .ok timeout => result (.set (r.expandKey key) value timeout)

/-- Delete keys. -/
def del (keys : List String) : Sends (Outcome Int) := result (.del (keys.map r.expandKey))

/-- Give a key a time to live. -/
def expire (key : String) (duration : String) : Sends (Outcome Unit) :=
  match parseDuration duration with
  | .error err => .ret (.error err)
  | .ok timeout => wrapResult (.expire (r.expandKey key) timeout) .bool

/-- The key exists. -/
def exists' (key : String) : Sends (Outcome Bool) :=
  mapResult (.existing [r.expandKey key]) fun count => decide (count > 0)

end Strings

section Hashes

variable (r : RedisView)

/-- Set a field unless there is one. -/
def hSetNX (key field : String) (value : Bytes) : Sends (Outcome Unit) :=
  wrapResult (.hSetNX (r.expandKey key) field value) .bool

/-- Set a field. -/
def hSet (key field : String) (value : Bytes) : Sends (Outcome Unit) :=
  wrapResult (.hSet (r.expandKey key) field value) .int

/-- Set several fields. -/
def hMSet (key : String) (values : Option (List (String × Bytes))) : Sends (Outcome Unit) :=
  match values with
  | none => .ret (.error .inputValuesIsNil)
  | some values => wrapResult (.hMSet (r.expandKey key) values) .bool

/-- Read a field. -/
def hGet (key field : String) : Sends (Outcome Bytes) := result (.hGet (r.expandKey key) field)

/-- The bytes of the values, each of which is asserted to be a byte slice. -/
def assertBytes : List Interface → Except Panic (List Bytes)
  | [] => .ok []
  | .bytes b :: values => (assertBytes values).map (b :: ·)
  | value :: _ => .error (.typeAssertion value)

/-- Read several fields. -/
def hMGet (key : String) (fields : List String) : Sends (Outcome (List Bytes)) :=
  .send (.hMGet (r.expandKey key) fields) fun
    | .error err => .ret (.error err)
    | .ok values => match assertBytes values with
      | .error panic => .panic panic
      | .ok out => .ret (.ok out)

/-- Read all fields. -/
def hGetAll (key : String) : Sends (Outcome (List (String × Bytes))) :=
  result (.hGetAll (r.expandKey key))

/-- Delete fields. -/
def hDel (key : String) (fields : List String) : Sends (Outcome Int) :=
  result (.hDel (r.expandKey key) fields)

/-- Count the fields. -/
def hLen (key : String) : Sends (Outcome Int) := result (.hLen (r.expandKey key))

/-- Read the names of the fields. -/
def hKeys (key : String) : Sends (Outcome (List String)) := result (.hKeys (r.expandKey key))

/-- Read the values of the fields. -/
def hValues (key : String) : Sends (Outcome (List Bytes)) := result (.hVals (r.expandKey key))

/-- The field exists. -/
def hExists (key field : String) : Sends (Outcome Bool) := result (.hExists (r.expandKey key) field)

end Hashes

section Lists

variable (r : RedisView)

/-- Remove occurrences of a value. -/
def lRem (key : String) (count : Int) (value : Bytes) : Sends (Outcome Int) :=
  result (.lRem (r.expandKey key) count value)

/-- Read an element. -/
def lIndex (key : String) (index : Int) : Sends (Outcome Bytes) :=
  result (.lIndex (r.expandKey key) index)

/-- Keep a segment. -/
def lTrim (key : String) (start stop : Int) : Sends (Outcome Unit) :=
  wrapResult (.lTrim (r.expandKey key) start stop) .string

/-- Set an element. -/
def lSet (key : String) (index : Int) (value : Bytes) : Sends (Outcome Unit) :=
  wrapResult (.lSet (r.expandKey key) index value) .string

/-- Add in front. -/
def lPush (key : String) (values : List Bytes) : Sends (Outcome Int) :=
  result (.lPush (r.expandKey key) values)

/-- Add at the end. -/
def lAppend (key : String) (values : List Bytes) : Sends (Outcome Int) :=
  result (.rPush (r.expandKey key) values)

/-- Take the first element. -/
def lPop (key : String) : Sends (Outcome Bytes) := result (.lPop (r.expandKey key))

/-- Take the last element. -/
def lRPop (key : String) : Sends (Outcome Bytes) := result (.rPop (r.expandKey key))

/-- Read a segment. -/
def lRange (key : String) (start stop : Int) : Sends (Outcome (List Bytes)) :=
  result (.lRange (r.expandKey key) start stop)

/-- Count the elements. -/
def lLen (key : String) : Sends (Outcome Int) := result (.lLen (r.expandKey key))

/-- The position is sent as the character with its number. -/
def lInsert (key : String) (op : Int) (pivot value : Bytes) : Sends (Outcome Int) :=
  result (.lInsert (r.expandKey key) (runeString op) pivot value)

end Lists

section Sets

variable (r : RedisView)

/-- Count the members. -/
def sLen (key : String) : Sends (Outcome Int) := result (.sCard (r.expandKey key))

/-- Add members. -/
def sAdd (key : String) (values : List Bytes) : Sends (Outcome Int) :=
  result (.sAdd (r.expandKey key) values)

/-- Remove members. -/
def sRem (key : String) (values : List Bytes) : Sends (Outcome Int) :=
  result (.sRem (r.expandKey key) values)

/-- Take a member. -/
def sPop (key : String) : Sends (Outcome Bytes) := result (.sPop (r.expandKey key))

/-- Take several members. -/
def sPopN (key : String) (count : Int) : Sends (Outcome (List Bytes)) :=
  result (.sPopN (r.expandKey key) count)

/-- The difference of sets. -/
def sDiff (keys : List String) : Sends (Outcome (List Bytes)) :=
  result (.sDiff (keys.map r.expandKey))


/-- Store the difference; the destination is not expanded. -/
def sDiffMerge (destination : String) (keys : List String) : Sends (Outcome Int) :=
  result (.sDiffStore destination (keys.map r.expandKey))

/-- The intersection of sets. -/
def sInter (keys : List String) : Sends (Outcome (List Bytes)) :=
  result (.sInter (keys.map r.expandKey))

/-- Store the intersection; the destination is not expanded. -/
def sInterMerge (destination : String) (keys : List String) : Sends (Outcome Int) :=
  result (.sInterStore destination (keys.map r.expandKey))

/-- The union of sets. -/
def sUnion (keys : List String) : Sends (Outcome (List Bytes)) :=
  result (.sUnion (keys.map r.expandKey))

/-- Store the union; the destination is not expanded. -/
def sUnionMerge (destination : String) (keys : List String) : Sends (Outcome Int) :=
  result (.sUnionStore destination (keys.map r.expandKey))

end Sets

section SortedSets

variable (r : RedisView)

/-- Count the members. -/
def zLen (key : String) : Sends (Outcome Int) := result (.zCard (r.expandKey key))

/-- Count the members between two scores. -/
def zCount (key : String) (min max : ℚ) : Sends (Outcome Int) :=
  result (.zCount (r.expandKey key) (formatFloat min) (formatFloat max))

/-- Not implemented: no command is sent. -/
def zLexCount (_key _min _max : String) : Sends (Outcome Int) := .ret (.error .notImplemented)

/-- Add members with scores. -/
def zAdd (key : String) (members : List ZMember) : Sends (Outcome Int) :=
  result (.zAdd (r.expandKey key) members)

/-- Remove members. -/
def zRem (key : String) (members : List ZMember) : Sends (Outcome Int) :=
  result (.zRem (r.expandKey key) (members.map (·.member)))

/-- Remove a range of names. -/
def zRemRangeByLex (key min max : String) : Sends (Outcome Int) :=
  result (.zRemRangeByLex (r.expandKey key) min max)

/-- Remove a range of scores. -/
def zRemRangeByScore (key : String) (min max : ℚ) : Sends (Outcome Int) :=
  result (.zRemRangeByScore (r.expandKey key) (formatFloat min) (formatFloat max))

/-- Remove a range of ranks. -/
def zRemRangeByRank (key : String) (start stop : Int) : Sends (Outcome Int) :=
  result (.zRemRangeByRank (r.expandKey key) start stop)

/-- What the commands of a range query have left so far: the last error, the members and the
members with scores. -/
structure Ranges where
  err : Option RedisError
  members : List Bytes
  zSlice : List ZMember

/-- The result of a range query: the members, then the members with scores. -/
def toRangeZMembers (ranges : Ranges) : Outcome (List ZMember) :=
  match ranges.err with
  | some err => .error err
  | none => .ok (ranges.members.map (⟨0, ·⟩) ++ ranges.zSlice)

/-- A command for members, where it is sent, replaces the members and the error. -/
def rangeMembers (send : Bool) (command : Command (List Bytes)) (ranges : Ranges) :
    Sends Ranges :=
  if send then
    .send command fun
      | .ok members => .ret { ranges with members, err := none }
      | .error err => .ret { ranges with members := [], err := some err }
  else .ret ranges

/-- A command for members with scores, where it is sent, replaces those and the error. -/
def rangeScores (send : Bool) (command : Command (List ZMember)) (ranges : Ranges) :
    Sends Ranges :=
  if send then
    .send command fun
      | .ok zSlice => .ret { ranges with zSlice, err := none }
      | .error err => .ret { ranges with zSlice := [], err := some err }
  else .ret ranges

/-- The four commands of a range query; the last two are sent also after the second. -/
def rangeQuery (plain : Command (List Bytes)) (revScores : Command (List ZMember))
    (rev : Command (List Bytes)) (scores : Command (List ZMember)) (reverse withScores : Bool) :
    Sends (Outcome (List ZMember)) := do
  let ranges ← rangeMembers (!reverse && !withScores) plain ⟨none, [], []⟩
  let ranges ← rangeScores (reverse && withScores) revScores ranges
  let ranges ← rangeMembers reverse rev ranges
  let ranges ← rangeScores withScores scores ranges
  pure (toRangeZMembers ranges)

/-- Read a range of ranks. -/
def zRange (key : String) (start stop : Int) (reverse withScores : Bool) :
    Sends (Outcome (List ZMember)) :=
  rangeQuery (.zRange (r.expandKey key) start stop)
    (.zRevRangeWithScores (r.expandKey key) start stop) (.zRevRange (r.expandKey key) start stop)
    (.zRangeWithScores (r.expandKey key) start stop) reverse withScores

/-- Read a range of scores. -/
def zRangeByScore (key : String) (rangeBy : ZRangeBy) (reverse withScores : Bool) :
    Sends (Outcome (List ZMember)) :=
  rangeQuery (.zRangeByScore (r.expandKey key) rangeBy)
    (.zRevRangeByScoreWithScores (r.expandKey key) rangeBy)
    (.zRevRangeByScore (r.expandKey key) rangeBy)
    (.zRangeByScoreWithScores (r.expandKey key) rangeBy) reverse withScores

/-- The key is not expanded, and the forward command is sent in any case. -/
def zRangeByLex (key : String) (rangeBy : ZRangeBy) (reverse : Bool) :
    Sends (Outcome (List ZMember)) := do
  let ranges ← rangeMembers reverse (.zRevRangeByLex key rangeBy) ⟨none, [], []⟩
  let ranges ← rangeMembers true (.zRangeByLex key rangeBy) ranges
  pure (toRangeZMembers ranges)

/-- The rank of a member. -/
def zRank (key : String) (member : Bytes) (reverse : Bool) : Sends (Outcome Int) :=
  if reverse then result (.zRevRank (r.expandKey key) member)
  else result (.zRank (r.expandKey key) member)

/-- Add to a score. -/
def zIncr (key : String) (member : ZMember) : Sends (Outcome ℚ) :=
  result (.zIncrBy (r.expandKey key) member.score member.member)

/-- The key is not expanded. -/
def zIncrNX (key : String) (member : ZMember) : Sends (Outcome ℚ) :=
  result (.zAddArgsIncr key true [member])


/-- Store the intersection; no key is expanded. -/
def zInterMerge (destination : String) (keys : List String) (wights : List ℚ)
    (aggregate : String) : Sends (Outcome Int) :=
  result (.zInterStore destination keys wights aggregate)

/-- Store the union; no key is expanded. -/
def zUnionMerge (destination : String) (keys : List String) (wights : List ℚ)
    (aggregate : String) : Sends (Outcome Int) :=
  result (.zUnionStore destination keys wights aggregate)

end SortedSets

section Geo

variable (r : RedisView)

/-- Add places. -/
def geoAdd (key : String) (geoLocation : List GeoLocation) : Sends (Outcome Int) :=
  result (.geoAdd (r.expandKey key) geoLocation)

/-- The client refuses a query that stores its result. -/
def radius (query : GeoRadiusQuery) (command : Command (List GeoLocation)) :
    Sends (Outcome (List GeoLocation)) :=
  if query.store ≠ "" ∨ query.storeDist ≠ "" then .ret (.error .storeUnsupported)
  else result command

/-- The places around a point. -/
def geoRadius (key : String) (longitude latitude : ℚ) (query : GeoRadiusQuery) :
    Sends (Outcome (List GeoLocation)) :=
  radius query (.geoRadius (r.expandKey key) longitude latitude query)

/-- The places around a member. -/
def geoRadiusByMember (key member : String) (query : GeoRadiusQuery) :
    Sends (Outcome (List GeoLocation)) :=
  radius query (.geoRadiusByMember (r.expandKey key) member query)

/-- The distance of two members. -/
def geoDist (key member1 member2 unit : String) : Sends (Outcome ℚ) :=
  result (.geoDist (r.expandKey key) member1 member2 unit)

/-- The hashes of members. -/
def geoHash (key : String) (members : List String) : Sends (Outcome (List String)) :=
  result (.geoHash (r.expandKey key) members)

/-- The places of members. -/
def geoPos (key : String) (members : List String) : Sends (Outcome (List (Option Location))) :=
  result (.geoPos (r.expandKey key) members)

/-- Store both places under a key with a random part, ask for their distance and delete the
key again. -/
def geoCalculateDistance (uuid key : String) (location1 location2 : Location) : Sends (Outcome ℚ) :=
  let key := key ++ ":" ++ uuid
  let body : Sends (Outcome ℚ) := do
    match ← r.geoAdd key [⟨"location1", location1.longitude, location1.latitude, 0, 0⟩] with
    | .error err => pure (.error err)
    | .ok _ =>
      match ← r.geoAdd key [⟨"location2", location2.longitude, location2.latitude, 0, 0⟩] with
      | .error err => pure (.error err)
      | .ok _ => r.geoDist key "location1" "location2" "km"
  body.withDefer (r.del [key])

end Geo

end RedisView

end Stardust.Redis
